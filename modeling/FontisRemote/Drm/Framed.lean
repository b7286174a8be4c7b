import FontisRemote.Drm.Conn
import FontisRemote.Lib.Slots

/-!
# What is received is what was sent

The bytes of the frames sent are those that were received in whole frames, those that the call under way has
read, those on the wire and those not written yet. A frame begins with its own length, so a call that has read
that much from where a frame begins has read the frame.

`Bounded` needs nothing of the peer: it holds whatever the bytes are.
-/

namespace FontisRemote.Drm

open FontisRemote.Lib

variable {Fd Data : Type}

/-! ## Frames -/

theorem length_beBytes (n : Nat) : (beBytes n).length = 4 := by
  rw [beBytes, List.length_reverse, length_leBytes]

theorem ofBeBytes_beBytes {n : Nat} (h : n < 2 ^ 32) : ofBeBytes (beBytes n) = n := by
  rw [ofBeBytes, beBytes, List.reverse_reverse, ofLeBytes_leBytes_of_lt h]

def plain (bytes : List UInt8) : Wire Fd := bytes.map fun b => (b, none)

theorem marked_none (bytes : List UInt8) : marked (none : Option Fd) bytes = plain bytes := by
  cases bytes <;> rfl

theorem marked_append {fd : Option Fd} {bytes more : List UInt8} (h : bytes ≠ []) :
    marked fd (bytes ++ more) = marked fd bytes ++ plain more := by
  cases bytes with
  | nil => exact absurd rfl h
  | cons b bytes => simp [marked, plain]

theorem map_fst_marked (fd : Option Fd) (bytes : List UInt8) : (marked fd bytes).map Prod.fst = bytes := by
  cases bytes with
  | nil => rfl
  | cons b bytes =>
    rw [marked, List.map_cons, List.map_map]
    exact congrArg _ (List.map_id bytes)

theorem map_fst_plain (bytes : List UInt8) : (plain bytes : Wire Fd).map Prod.fst = bytes := by
  rw [← marked_none, map_fst_marked]

/-- The descriptor that `recvmsg` keeps of these bytes. -/
def firstFd (chunk : Wire Fd) : Option Fd := (chunk.filterMap Prod.snd).head?

theorem firstFd_append (chunk more : Wire Fd) : firstFd (chunk ++ more) = (firstFd chunk).or (firstFd more) := by
  rw [firstFd, List.filterMap_append, List.head?_append]
  rfl

theorem firstFd_marked {fd : Option Fd} {bytes : List UInt8} (h : bytes ≠ []) : firstFd (marked fd bytes) = fd := by
  cases bytes with
  | nil => exact absurd rfl h
  | cons b bytes =>
    have hnone : (bytes.map fun b => (b, (none : Option Fd))).filterMap Prod.snd = [] := by
      rw [List.filterMap_map]
      exact List.filterMap_eq_nil_iff.2 fun _ _ => rfl
    cases fd with
    | none => rw [firstFd, marked, List.filterMap_cons_none (f := Prod.snd) rfl, hnone, List.head?_nil]
    | some fd => rw [firstFd, marked, List.filterMap_cons_some (f := Prod.snd) rfl, List.head?_cons]

def Outgoing.header (o : Outgoing Fd) : Wire Fd := marked o.fd (beBytes o.payload.length)

def Outgoing.frame (o : Outgoing Fd) : Wire Fd := o.header ++ plain o.payload

def frames (sent : List (Outgoing Fd)) : Wire Fd := sent.flatMap Outgoing.frame

theorem Outgoing.length_header (o : Outgoing Fd) : o.header.length = 4 := by
  have h := congrArg List.length (map_fst_marked o.fd (beBytes o.payload.length))
  rw [List.length_map, length_beBytes] at h
  exact h

theorem beBytes_ne_nil (n : Nat) : beBytes n ≠ [] := by
  intro h
  have hlen := length_beBytes n
  rw [h] at hlen
  cases hlen

/-- As many bytes as a length and what it says are, from where a frame begins, are that frame. -/
theorem frame_of_length {sent : List (Outgoing Fd)} (hsent : ∀ o ∈ sent, o.payload.length < 2 ^ 32)
    {head tail rest : Wire Fd} (hstream : head ++ tail ++ rest = frames sent) (hhead : head.length = 4)
    (htail : tail.length = ofBeBytes (head.map Prod.fst)) :
    ∃ o more, sent = o :: more ∧ head = o.header ∧ tail.map Prod.fst = o.payload ∧ rest = frames more := by
  cases sent with
  | nil =>
    have hlen := congrArg List.length hstream
    simp only [frames, List.flatMap_nil, List.length_append, List.length_nil] at hlen
    omega
  | cons o more =>
    have ho := hsent o List.mem_cons_self
    rw [frames, List.flatMap_cons, Outgoing.frame, List.append_assoc, List.append_assoc] at hstream
    obtain ⟨hheader, hafter⟩ := List.append_inj hstream (hhead.trans o.length_header.symm)
    rw [hheader, Outgoing.header, map_fst_marked, ofBeBytes_beBytes ho] at htail
    have hplain : (plain o.payload : Wire Fd).length = o.payload.length := List.length_map _
    obtain ⟨hpayload, hrest⟩ := List.append_inj hafter (htail.trans hplain.symm)
    refine ⟨o, more, rfl, hheader, ?_, hrest⟩
    rw [hpayload, map_fst_plain]

/-! ## The sender -/

/-- What is not on the wire yet. After a failure that may be anything. -/
def Sending.Unsent : Sending Fd → Wire Fd → Prop
  | .idle, rest => rest = []
  | .writing buf passFd payload, rest => rest = marked passFd buf ++ plain (payload.getD [])
  | .failed, _ => True

theorem Sending.unsent_written (buf : List UInt8) (payload : Option (List UInt8)) :
    (Sending.written buf (none : Option Fd) payload).Unsent (plain buf ++ plain (payload.getD [])) := by
  cases payload with
  | none =>
    unfold written
    dsimp only
    split
    · rename_i hbuf
      subst hbuf
      rfl
    · rw [Unsent, marked_none]
  | some payload =>
    unfold written
    dsimp only
    split
    · rename_i hbuf
      subst hbuf
      split
      · rename_i hpayload
        subst hpayload
        rfl
      · rw [Unsent, marked_none]
        simp [plain]
    · rw [Unsent, marked_none]

theorem Sending.unsent_drmWriteAll {sending sending' : Sending Fd} {rest chunk : Wire Fd} {n : Nat}
    (h : sending.Unsent rest) (hwrite : sending.drmWriteAll n = some (chunk, sending')) :
    ∃ rest', rest = chunk ++ rest' ∧ sending'.Unsent rest' := by
  cases sending with
  | idle => cases hwrite
  | failed => cases hwrite
  | writing buf passFd payload =>
    unfold drmWriteAll at hwrite
    dsimp only at hwrite
    split at hwrite
    · rename_i hn
      cases hwrite
      have hne : buf.take n ≠ [] := by
        intro hnil
        have hlen := congrArg List.length hnil
        rw [List.length_take, List.length_nil] at hlen
        omega
      refine ⟨_, ?_, unsent_written _ _⟩
      rw [← List.append_assoc, ← marked_append hne, List.take_append_drop]
      exact h
    · cases hwrite

/-! ## The receiver -/

theorem length_took {read : ReadFull Fd} {chunk : Wire Fd} (h : read.off + chunk.length ≤ read.buf.length) :
    (read.took chunk).buf.length = read.buf.length := by
  unfold ReadFull.took
  dsimp only
  rw [List.length_append, List.length_append, List.length_take, List.length_map, List.length_drop]
  omega

/-- The bytes of `read` so far. -/
structure Filled (read : ReadFull Fd) (chunk : Wire Fd) : Prop where
  off : read.off = chunk.length
  bytes : read.buf.take read.off = chunk.map Prod.fst
  fits : read.off ≤ read.len ∧ read.len ≤ read.buf.length

theorem Filled.took {read : ReadFull Fd} {before chunk : Wire Fd} (h : Filled read before)
    (hle : read.off + chunk.length ≤ read.len) : Filled (read.took chunk) (before ++ chunk) := by
  obtain ⟨hoff, hlen⟩ := h.fits
  have htake : (read.buf.take read.off).length = read.off := by
    rw [List.length_take]
    omega
  refine ⟨?_, ?_, ?_, ?_⟩
  · rw [ReadFull.took, List.length_append, ← h.off]
  · have hall : (read.buf.take read.off ++ chunk.map Prod.fst).length = read.off + chunk.length := by
      rw [List.length_append, htake, List.length_map]
    unfold ReadFull.took
    dsimp only
    rw [List.take_append_of_le_length (Nat.le_of_eq hall.symm), ← hall, List.take_length, h.bytes, List.map_append]
  · exact hle
  · rw [length_took (Nat.le_trans hle hlen)]
    exact hlen

/-- What the call under way has read. -/
inductive Partial : Receiving Fd → Wire Fd → Prop
  | idle : Partial .idle []
  | readable : Partial .readable []
  | header {call : RecvCall} {read : ReadFull Fd} {chunk : Wire Fd} (filled : Filled read chunk) (len : read.len = 4)
      (more : read.off < read.len) (cmsg : read.wantCmsg) (got : read.got = firstFd chunk) :
      Partial (.header call read) chunk
  | body {call : RecvCall} {fd : Option Fd} {read : ReadFull Fd} {head chunk : Wire Fd} (filled : Filled read chunk)
      (length : head.length = 4) (len : read.len = ofBeBytes (head.map Prod.fst)) (more : read.off < read.len)
      (whole : ∀ out, call = .nextRawInto out → read.buf.length = read.len)
      (got : (∀ out, call ≠ .nextRawInto out) → fd = firstFd head) :
      Partial (.body call fd read) (head ++ chunk)
  | closed {chunk : Wire Fd} : Partial .closed chunk

/-- A receive against the send it belongs to. -/
def Delivers (fromSlice : List UInt8 → Option Data) (o : Outgoing Fd) : Received Fd Data → Prop
  | .msg data fd => fromSlice o.payload = some data ∧ fd = o.fd
  | .raw out => out = o.payload

def RecvCall.cap : RecvCall → Nat
  | .nextRawInto _ => MAX_DRM_RAW_BYTES
  | _ => MAX_DRM_JSON_BYTES

theorem cap_msg {call : RecvCall} (h : ∀ out, call ≠ .nextRawInto out) : call.cap ≤ MAX_DRM_JSON_BYTES := by
  cases call with
  | nextRawInto out => exact absurd rfl (h out)
  | recvMsg => exact Nat.le_refl _
  | recvMsgTimeout2 => exact Nat.le_refl _

namespace DrmConn

variable {fromSlice : List UInt8 → Option Data} {c c' : DrmConn Fd Data}

/-- A call that could still return `None` has read nothing, and those that returned it had not. -/
structure Quiet (c : DrmConn Fd Data) : Prop where
  readable : c.receiving = .readable → c.begun = c.taken
  header : ∀ call read, c.receiving = .header call read → (∀ out, call ≠ .nextRawInto out) → c.consumed = false →
    c.begun = c.taken ∧ read.off = 0
  body : ∀ call fd read, c.receiving = .body call fd read → c.consumed
  nones : ∀ p ∈ c.nones, p.1 = p.2

/-- The buffers, whatever the peer sends. -/
structure Bounded (c : DrmConn Fd Data) : Prop where
  readBuf : c.readBuf.length ≤ MAX_DRM_JSON_BYTES
  header : ∀ call read, c.receiving = .header call read → read.off ≤ read.len ∧ read.len ≤ read.buf.length
  body : ∀ call fd read, c.receiving = .body call fd read → read.off ≤ read.len ∧ read.len ≤ read.buf.length ∧
    read.buf.length ≤ call.cap
  received : ∀ out, .raw out ∈ c.received → out.length ≤ MAX_DRM_RAW_BYTES

/-! ## One call -/

theorem recv_cases {call : RecvCall} (h : c.recv call = some c') : c.receiving = .idle ∧
    (c' = { c with receiving := .readable, begun := c.taken } ∨ c' = { c.start call with begun := c.taken }) := by
  unfold recv at h
  split at h
  · rename_i hidle
    refine ⟨hidle, ?_⟩
    split at h
    · cases h
      exact .inl rfl
    · cases h
      exact .inr rfl
  · cases h

theorem ready_cases (h : c.ready = some c') : c.receiving = .readable ∧ c' = c.start .recvMsgTimeout2 := by
  unfold ready at h
  split at h
  · rename_i hreadable
    cases h
    exact ⟨hreadable, rfl⟩
  · cases h

theorem readChunk_cases {chunk : Wire Fd} (h : c.readChunk fromSlice chunk = some c') :
    (∃ call read, c.receiving = .header call read ∧ read.off + chunk.length ≤ read.len ∧
      ((read.off + chunk.length < read.len ∧
          c' = { c with
            consumed := true
            taken := c.taken + chunk.length
            receiving := .header call (read.took chunk) }) ∨
        read.off + chunk.length = read.len ∧
          c' = ({ c with consumed := true, taken := c.taken + chunk.length } : DrmConn Fd Data).startBody fromSlice
            call (read.took chunk).got ((read.took chunk).buf.take read.len))) ∨
    ∃ call fd read, c.receiving = .body call fd read ∧ read.off + chunk.length ≤ read.len ∧
      c' = ({ c with consumed := true, taken := c.taken + chunk.length } : DrmConn Fd Data).readBody fromSlice
        call fd (read.took chunk) := by
  unfold readChunk at h
  dsimp only at h
  split at h
  · rename_i call read hheader
    split at h
    · rename_i hle
      refine .inl ⟨call, read, hheader, hle.2, ?_⟩
      split at h
      · rename_i hmore
        cases h
        exact .inl ⟨hmore, rfl⟩
      · rename_i hmore
        cases h
        exact .inr ⟨Nat.le_antisymm hle.2 (Nat.le_of_not_lt hmore), rfl⟩
    · cases h
  · rename_i call fd read hbody
    split at h
    · rename_i hle
      cases h
      exact .inr ⟨call, fd, read, hbody, hle.2, rfl⟩
    · cases h
  · cases h

theorem finish_cases (c : DrmConn Fd Data) (fromSlice : List UInt8 → Option Data) (call : RecvCall) (fd : Option Fd)
    (read : ReadFull Fd) :
    (∃ out, call = .nextRawInto out ∧
      c.finish fromSlice call fd read =
        { c with receiving := .idle, received := c.received ++ [.raw read.buf] }) ∨
    (∀ out, call ≠ .nextRawInto out) ∧
      ((∃ data, fromSlice (read.buf.take read.len) = some data ∧ c.finish fromSlice call fd read =
          { c with readBuf := read.buf, receiving := .idle, received := c.received ++ [.msg data fd] }) ∨
        c.finish fromSlice call fd read = { c with readBuf := read.buf, receiving := .closed }) := by
  have hmsg : ∀ call : RecvCall, (∀ out, call ≠ .nextRawInto out) → c.finish fromSlice call fd read =
      (fromSlice (read.buf.take read.len)).elim { c with readBuf := read.buf, receiving := .closed } fun data =>
        { c with readBuf := read.buf, receiving := .idle, received := c.received ++ [.msg data fd] } := by
    intro call hne
    unfold finish
    split
    · exact absurd rfl (hne _)
    · cases fromSlice (read.buf.take read.len) <;> rfl
  cases call with
  | nextRawInto out => exact .inl ⟨out, rfl, rfl⟩
  | recvMsg =>
    have hne : ∀ out, RecvCall.recvMsg ≠ .nextRawInto out := by
      intro out h
      cases h
    rw [hmsg .recvMsg hne]
    cases fromSlice (read.buf.take read.len) with
    | none => exact .inr ⟨hne, .inr rfl⟩
    | some data => exact .inr ⟨hne, .inl ⟨data, rfl, rfl⟩⟩
  | recvMsgTimeout2 =>
    have hne : ∀ out, RecvCall.recvMsgTimeout2 ≠ .nextRawInto out := by
      intro out h
      cases h
    rw [hmsg .recvMsgTimeout2 hne]
    cases fromSlice (read.buf.take read.len) with
    | none => exact .inr ⟨hne, .inr rfl⟩
    | some data => exact .inr ⟨hne, .inl ⟨data, rfl, rfl⟩⟩

theorem length_resize (buf : List UInt8) (len : Nat) : (resize buf len).length = len := by
  rw [resize, List.length_append, List.length_take, List.length_replicate]
  omega

/-- The length is over the cap, or a buffer for that many bytes is read into. -/
theorem startBody_cases (c : DrmConn Fd Data) (fromSlice : List UInt8 → Option Data) (call : RecvCall) (fd : Option Fd)
    (lenBytes : List UInt8) :
    c.startBody fromSlice call fd lenBytes = { c with receiving := .closed } ∨
    ∃ fd' buf, c.startBody fromSlice call fd lenBytes =
        c.readBody fromSlice call fd' { buf := buf, len := ofBeBytes lenBytes, wantCmsg := false } ∧
      ofBeBytes lenBytes ≤ buf.length ∧ (c.readBuf.length ≤ MAX_DRM_JSON_BYTES → buf.length ≤ call.cap) ∧
      (∀ out, call = .nextRawInto out → buf.length = ofBeBytes lenBytes) ∧
      ((∀ out, call ≠ .nextRawInto out) → fd' = fd) := by
  have hgrown : ofBeBytes lenBytes ≤
      (if c.readBuf.length < ofBeBytes lenBytes then resize c.readBuf (ofBeBytes lenBytes) else c.readBuf).length := by
    split
    · rw [length_resize]
    · omega
  have hcap : ¬ MAX_DRM_JSON_BYTES < ofBeBytes lenBytes → c.readBuf.length ≤ MAX_DRM_JSON_BYTES →
      (if c.readBuf.length < ofBeBytes lenBytes then resize c.readBuf (ofBeBytes lenBytes) else c.readBuf).length ≤
        MAX_DRM_JSON_BYTES := by
    intro hle hbuf
    split
    · rw [length_resize]
      exact Nat.le_of_not_lt hle
    · exact hbuf
  unfold startBody
  dsimp only
  cases call with
  | nextRawInto out =>
    dsimp only
    split
    · exact .inl rfl
    · rename_i hle
      refine .inr ⟨none, resize out (ofBeBytes lenBytes), rfl, ?_, fun _ => ?_, fun _ _ => length_resize _ _,
        fun hne => absurd rfl (hne out)⟩
      · rw [length_resize]
      · rw [length_resize]
        exact Nat.le_of_not_lt hle
  | recvMsg =>
    dsimp only
    split
    · exact .inl rfl
    · rename_i hle
      exact .inr ⟨fd, _, rfl, hgrown, hcap hle, fun out h => (by cases h), fun _ => rfl⟩
  | recvMsgTimeout2 =>
    dsimp only
    split
    · exact .inl rfl
    · rename_i hle
      exact .inr ⟨fd, _, rfl, hgrown, hcap hle, fun out h => (by cases h), fun _ => rfl⟩

/-- The call ends with an error, or `recv_msg_timeout2` returns `None` before its first byte. -/
theorem timeout_cases (h : c.timeout = some c') :
    c' = { c with receiving := .closed } ∨
      c' = c.returnNone ∧ (c.receiving = .readable ∨ c.consumed = false ∧
        ((∃ read, c.receiving = .header .recvMsgTimeout2 read) ∨
          ∃ fd read, c.receiving = .body .recvMsgTimeout2 fd read)) := by
  have hexpired : ∀ call, c.expired call = some c' →
      c' = { c with receiving := .closed } ∨ c' = c.returnNone ∧ c.consumed = false ∧ call = .recvMsgTimeout2 := by
    intro call hcall
    cases call with
    | recvMsg => cases hcall
    | nextRawInto out =>
      cases hcall
      exact .inl rfl
    | recvMsgTimeout2 =>
      unfold expired at hcall
      dsimp only at hcall
      split at hcall
      · cases hcall
        exact .inl rfl
      · rename_i hconsumed
        cases hcall
        exact .inr ⟨rfl, Bool.eq_false_iff.2 hconsumed, rfl⟩
  unfold timeout at h
  split at h
  · rename_i hreadable
    cases h
    exact .inr ⟨rfl, .inl hreadable⟩
  · rename_i call read hheader
    rcases hexpired call h with hclosed | ⟨heq, hconsumed, rfl⟩
    · exact .inl hclosed
    · exact .inr ⟨heq, .inr ⟨hconsumed, .inl ⟨read, hheader⟩⟩⟩
  · rename_i call fd read hbody
    rcases hexpired call h with hclosed | ⟨heq, hconsumed, rfl⟩
    · exact .inl hclosed
    · exact .inr ⟨heq, .inr ⟨hconsumed, .inr ⟨fd, read, hbody⟩⟩⟩
  · cases h

theorem fail_cases (h : c.fail = some c') : c' = { c with receiving := .closed } := by
  unfold fail at h
  split at h
  · cases h
  · cases h
  · cases h
    rfl

/-! ## Any bytes -/

theorem Quiet.ended (h : Quiet c) {receiving : Receiving Fd} {readBuf : List UInt8} {received : List (Received Fd Data)}
    (hr : receiving = .idle ∨ receiving = .closed) :
    Quiet { c with receiving := receiving, readBuf := readBuf, received := received } := by
  refine ⟨fun heq => ?_, fun _ _ heq => ?_, fun _ _ _ heq => ?_, h.nones⟩ <;>
  · dsimp only at heq
    rw [heq] at hr
    rcases hr with h | h <;> cases h

theorem Quiet.readBody (h : Quiet c) (hconsumed : c.consumed) (call : RecvCall) (fd : Option Fd) (read : ReadFull Fd) :
    Quiet (c.readBody fromSlice call fd read) := by
  unfold DrmConn.readBody
  split
  · refine ⟨fun heq => ?_, fun _ _ heq => ?_, fun _ _ _ _ => hconsumed, h.nones⟩
    · cases heq
    · cases heq
  · rcases c.finish_cases fromSlice call fd read with ⟨out, -, heq⟩ | ⟨-, ⟨data, -, heq⟩ | heq⟩
    · rw [heq]
      exact h.ended (.inl rfl)
    · rw [heq]
      exact h.ended (.inl rfl)
    · rw [heq]
      exact h.ended (.inr rfl)

theorem Quiet.start (hnones : ∀ p ∈ c.nones, p.1 = p.2) (hbegun : c.begun = c.taken) (call : RecvCall) :
    Quiet (c.start call) := by
  refine ⟨fun heq => ?_, fun call' read heq hcall hconsumed => ⟨hbegun, ?_⟩, fun _ _ _ heq => ?_, hnones⟩
  · cases heq
  · cases heq
    rfl
  · cases heq

theorem Quiet.returnNone (h : Quiet c) (hbegun : c.begun = c.taken) : Quiet c.returnNone := by
  refine ⟨fun heq => ?_, fun _ _ heq => ?_, fun _ _ _ heq => ?_, fun p hp => ?_⟩
  · cases heq
  · cases heq
  · cases heq
  · rcases List.mem_append.1 hp with hold | hnew
    · exact h.nones p hold
    · rw [List.mem_singleton.1 hnew]
      exact hbegun

/-- `None` is returned where nothing was read. -/
theorem Quiet.unread (h : Quiet c) (hnone : c.receiving = .readable ∨ c.consumed = false ∧
    ((∃ read, c.receiving = .header .recvMsgTimeout2 read) ∨
      ∃ fd read, c.receiving = .body .recvMsgTimeout2 fd read)) : c.begun = c.taken := by
  rcases hnone with hreadable | ⟨hconsumed, ⟨read, hheader⟩ | ⟨fd, read, hbody⟩⟩
  · exact h.readable hreadable
  · exact (h.header _ read hheader (fun out heq => by cases heq) hconsumed).1
  · rw [h.body _ fd read hbody] at hconsumed
    cases hconsumed

theorem Quiet.step (h : Quiet c) {e : Event Fd} (hstep : c.step fromSlice e = some c') : Quiet c' := by
  cases e with
  | recv call =>
    obtain ⟨-, rfl | rfl⟩ := recv_cases hstep
    · refine ⟨fun _ => rfl, fun _ _ heq => ?_, fun _ _ _ heq => ?_, h.nones⟩
      · cases heq
      · cases heq
    · exact Quiet.start (c := { c with begun := c.taken }) h.nones rfl call
  | ready =>
    obtain ⟨hreadable, rfl⟩ := ready_cases hstep
    exact Quiet.start h.nones (h.readable hreadable) _
  | readChunk chunk =>
    have hread : ∀ receiving : Receiving Fd, receiving ≠ .readable →
        Quiet ({ c with
          consumed := true
          taken := c.taken + chunk.length
          receiving := receiving } : DrmConn Fd Data) :=
      fun receiving hne => ⟨fun heq => absurd heq hne, fun _ _ _ _ hconsumed => (by cases hconsumed),
        fun _ _ _ _ => rfl, h.nones⟩
    rcases readChunk_cases hstep with ⟨call, read, hheader, -, ⟨-, rfl⟩ | ⟨-, rfl⟩⟩ | ⟨call, fd, read, hbody, -, rfl⟩
    · exact hread _ (by simp)
    · have hquiet := hread c.receiving (by simp [hheader])
      rcases startBody_cases ({ c with consumed := true, taken := c.taken + chunk.length } : DrmConn Fd Data) fromSlice
        call (read.took chunk).got ((read.took chunk).buf.take read.len) with heq | ⟨fd', buf, heq, -⟩
      · rw [heq]
        exact hread .closed (by simp)
      · rw [heq]
        exact hquiet.readBody rfl _ _ _
    · exact (hread c.receiving (by simp [hbody])).readBody rfl _ _ _
  | timeout =>
    rcases timeout_cases hstep with rfl | ⟨rfl, hnone⟩
    · exact h.ended (.inr rfl)
    · exact h.returnNone (h.unread hnone)
  | fail =>
    obtain rfl := fail_cases hstep
    exact h.ended (.inr rfl)

theorem Bounded.ended (h : Bounded c) {receiving : Receiving Fd} (hr : receiving = .idle ∨ receiving = .closed) :
    Bounded { c with receiving := receiving } := by
  refine ⟨h.readBuf, fun _ _ heq => ?_, fun _ _ _ heq => ?_, h.received⟩ <;>
  · dsimp only at heq
    rw [heq] at hr
    rcases hr with h | h <;> cases h

theorem Bounded.readBody (h : Bounded c) {call : RecvCall} {fd : Option Fd} {read : ReadFull Fd}
    (hread : read.off ≤ read.len ∧ read.len ≤ read.buf.length ∧ read.buf.length ≤ call.cap) :
    Bounded (c.readBody fromSlice call fd read) := by
  unfold DrmConn.readBody
  split
  · refine ⟨h.readBuf, fun _ _ heq => ?_, fun call' fd' read' heq => ?_, h.received⟩
    · cases heq
    · cases heq
      exact hread
  · have hno : ∀ {receiving : Receiving Fd} {readBuf : List UInt8} {received : List (Received Fd Data)},
        receiving = .idle ∨ receiving = .closed → readBuf.length ≤ MAX_DRM_JSON_BYTES →
        (∀ out, .raw out ∈ received → out.length ≤ MAX_DRM_RAW_BYTES) →
        Bounded { c with receiving := receiving, readBuf := readBuf, received := received } := by
      intro receiving readBuf received hr hbuf hreceived
      refine ⟨hbuf, fun _ _ heq => ?_, fun _ _ _ heq => ?_, hreceived⟩ <;>
      · dsimp only at heq
        rw [heq] at hr
        rcases hr with h | h <;> cases h
    rcases c.finish_cases fromSlice call fd read with ⟨out, hcall, heq⟩ | ⟨hne, ⟨data, -, heq⟩ | heq⟩
    · rw [heq]
      refine hno (.inl rfl) h.readBuf fun out' hmem => ?_
      rcases List.mem_append.1 hmem with hold | hnew
      · exact h.received out' hold
      · cases List.mem_singleton.1 hnew
        rw [hcall] at hread
        exact hread.2.2
    · rw [heq]
      refine hno (.inl rfl) (Nat.le_trans hread.2.2 (cap_msg hne)) fun out' hmem => ?_
      rcases List.mem_append.1 hmem with hold | hnew
      · exact h.received out' hold
      · cases List.mem_singleton.1 hnew
    · rw [heq]
      exact hno (.inr rfl) (Nat.le_trans hread.2.2 (cap_msg hne)) h.received

theorem Bounded.step (h : Bounded c) {e : Event Fd} (hstep : c.step fromSlice e = some c') : Bounded c' := by
  have hstart : ∀ call begun, Bounded ({ c.start call with begun := begun } : DrmConn Fd Data) := by
    intro call begun
    refine ⟨h.readBuf, fun call' read heq => ?_, fun _ _ _ heq => ?_, h.received⟩
    · cases heq
      exact ⟨Nat.zero_le _, Nat.le_refl _⟩
    · cases heq
  cases e with
  | recv call =>
    obtain ⟨-, rfl | rfl⟩ := recv_cases hstep
    · refine ⟨h.readBuf, fun _ _ heq => ?_, fun _ _ _ heq => ?_, h.received⟩
      · cases heq
      · cases heq
    · exact hstart call _
  | ready =>
    obtain ⟨-, rfl⟩ := ready_cases hstep
    exact hstart .recvMsgTimeout2 c.begun
  | readChunk chunk =>
    have hsame : Bounded ({ c with consumed := true, taken := c.taken + chunk.length } : DrmConn Fd Data) :=
      ⟨h.readBuf, h.header, h.body, h.received⟩
    rcases readChunk_cases hstep with ⟨call, read, hheader, hle, ⟨hmore, rfl⟩ | ⟨hlast, rfl⟩⟩ |
      ⟨call, fd, read, hbody, hle, rfl⟩
    · have hread := h.header call read hheader
      refine ⟨h.readBuf, fun call' read' heq => ?_, fun _ _ _ heq => ?_, h.received⟩
      · cases heq
        refine ⟨hle, ?_⟩
        rw [length_took (Nat.le_trans hle hread.2)]
        exact hread.2
      · cases heq
    · rcases startBody_cases ({ c with consumed := true, taken := c.taken + chunk.length } : DrmConn Fd Data) fromSlice
        call (read.took chunk).got ((read.took chunk).buf.take read.len) with heq | ⟨fd', buf, heq, hlen, hcap, -⟩
      · rw [heq]
        exact hsame.ended (.inr rfl)
      · rw [heq]
        exact hsame.readBody ⟨Nat.zero_le _, hlen, hcap h.readBuf⟩
    · obtain ⟨hoff, hlen, hcap⟩ := h.body call fd read hbody
      refine hsame.readBody ⟨hle, ?_, ?_⟩
      · rw [length_took (Nat.le_trans hle hlen)]
        exact hlen
      · rw [length_took (Nat.le_trans hle hlen)]
        exact hcap
  | timeout =>
    rcases timeout_cases hstep with rfl | ⟨rfl, -⟩
    · exact h.ended (.inr rfl)
    · refine ⟨h.readBuf, fun _ _ heq => ?_, fun _ _ _ heq => ?_, h.received⟩
      · cases heq
      · cases heq
  | fail =>
    obtain rfl := fail_cases hstep
    exact h.ended (.inr rfl)

end DrmConn

/-! ## Both ends -/

theorem Partial.fresh (call : RecvCall) :
    Partial (.header call { buf := [0, 0, 0, 0], len := 4, wantCmsg := true } : Receiving Fd) [] :=
  .header ⟨rfl, rfl, Nat.zero_le _, Nat.le_refl _⟩ rfl (Nat.zero_lt_succ 3) rfl rfl

/-- What was received are the first sends. The frames after them are what the call under way has read, what is on
the wire and what is not written. -/
structure Follows (fromSlice : List UInt8 → Option Data) (sent : List (Outgoing Fd)) (sending : Sending Fd)
    (wire : Wire Fd) (c : DrmConn Fd Data) : Prop where
  stream : ∃ chunk rest, Partial c.receiving chunk ∧ sending.Unsent rest ∧
    chunk ++ wire ++ rest = frames (sent.drop c.received.length)
  delivered : ∀ (i : Nat) (r : Received Fd Data), c.received[i]? = some r →
    ∃ o, sent[i]? = some o ∧ Delivers fromSlice o r

namespace Follows

open DrmConn

variable {fromSlice : List UInt8 → Option Data} {sent : List (Outgoing Fd)} {sending : Sending Fd} {wire : Wire Fd}
  {c c' : DrmConn Fd Data}

theorem closed (h : Follows fromSlice sent sending wire c) {readBuf : List UInt8} {consumed : Bool} {taken : Nat}
    {after : Wire Fd} (hafter : ∃ chunk, wire = chunk ++ after) :
    Follows fromSlice sent sending after
      { c with receiving := .closed, readBuf := readBuf, consumed := consumed, taken := taken } := by
  obtain ⟨before, rest, -, hrest, hstream⟩ := h.stream
  obtain ⟨chunk, rfl⟩ := hafter
  refine ⟨⟨before ++ chunk, rest, .closed, hrest, ?_⟩, h.delivered⟩
  rw [← hstream, List.append_assoc before chunk after]

/-- A frame that was read whole is the next one that was sent. -/
theorem finish (hsizes : ∀ o ∈ sent, o.payload.length < 2 ^ 32) {call : RecvCall} {fd : Option Fd} {read : ReadFull Fd}
    {head chunk rest : Wire Fd}
    (hdelivered : ∀ (i : Nat) (r : Received Fd Data), c.received[i]? = some r →
      ∃ o, sent[i]? = some o ∧ Delivers fromSlice o r)
    (hfilled : Filled read chunk) (hhead : head.length = 4) (hlen : read.len = ofBeBytes (head.map Prod.fst))
    (hlast : read.off = read.len) (hwhole : ∀ out, call = .nextRawInto out → read.buf.length = read.len)
    (hgot : (∀ out, call ≠ .nextRawInto out) → fd = firstFd head) (hrest : sending.Unsent rest)
    (hstream : head ++ chunk ++ wire ++ rest = frames (sent.drop c.received.length)) :
    Follows fromSlice sent sending wire (c.finish fromSlice call fd read) := by
  rw [List.append_assoc _ wire] at hstream
  obtain ⟨o, more, hdrop, hheader, hpayload, hafter⟩ := frame_of_length
    (fun o ho => hsizes o (List.mem_of_mem_drop ho)) hstream hhead (hfilled.off.symm.trans (hlast.trans hlen))
  have hnext : sent[c.received.length]? = some o := by
    rw [← List.head?_drop, hdrop, List.head?_cons]
  have hmore : sent.drop (c.received.length + 1) = more := by
    rw [← List.tail_drop, hdrop, List.tail_cons]
  have hbytes : read.buf.take read.len = o.payload := by
    rw [← hlast, hfilled.bytes, hpayload]
  have hreceived : ∀ r, Delivers fromSlice o r → ∀ (i : Nat) r', (c.received ++ [r])[i]? = some r' →
      ∃ o, sent[i]? = some o ∧ Delivers fromSlice o r' := by
    intro r hr i r' hi
    rcases getElem?_append_singleton hi with hold | ⟨rfl, rfl⟩
    · exact hdelivered i r' hold
    · exact ⟨o, hnext, hr⟩
  have hrestart : ∀ r : Received Fd Data, [] ++ wire ++ rest = frames (sent.drop (c.received ++ [r]).length) := by
    intro r
    rw [List.length_append, List.length_singleton, hmore]
    exact hafter
  rcases c.finish_cases fromSlice call fd read with ⟨out, hcall, heq⟩ | ⟨hne, ⟨data, hdata, heq⟩ | heq⟩
  · rw [heq]
    refine ⟨⟨[], rest, .idle, hrest, hrestart _⟩, hreceived _ ?_⟩
    rw [Delivers, ← hbytes, ← hwhole out hcall, List.take_length]
  · rw [heq]
    refine ⟨⟨[], rest, .idle, hrest, hrestart _⟩, hreceived _ ⟨?_, ?_⟩⟩
    · rw [← hbytes]
      exact hdata
    · rw [hgot hne, hheader, Outgoing.header, firstFd_marked (beBytes_ne_nil _)]
  · rw [heq]
    refine ⟨⟨head ++ chunk, rest, .closed, hrest, ?_⟩, hdelivered⟩
    rw [List.append_assoc _ wire]
    exact hstream

theorem readBody (hsizes : ∀ o ∈ sent, o.payload.length < 2 ^ 32) {call : RecvCall} {fd : Option Fd} {read : ReadFull Fd}
    {head chunk rest : Wire Fd}
    (hdelivered : ∀ (i : Nat) (r : Received Fd Data), c.received[i]? = some r →
      ∃ o, sent[i]? = some o ∧ Delivers fromSlice o r)
    (hfilled : Filled read chunk) (hhead : head.length = 4) (hlen : read.len = ofBeBytes (head.map Prod.fst))
    (hwhole : ∀ out, call = .nextRawInto out → read.buf.length = read.len)
    (hgot : (∀ out, call ≠ .nextRawInto out) → fd = firstFd head) (hrest : sending.Unsent rest)
    (hstream : head ++ chunk ++ wire ++ rest = frames (sent.drop c.received.length)) :
    Follows fromSlice sent sending wire (c.readBody fromSlice call fd read) := by
  unfold DrmConn.readBody
  split
  · rename_i hmore
    exact ⟨⟨head ++ chunk, rest, .body hfilled hhead hlen hmore hwhole hgot, hrest, hstream⟩, hdelivered⟩
  · rename_i hlast
    exact finish hsizes hdelivered hfilled hhead hlen (Nat.le_antisymm hfilled.fits.1 (Nat.le_of_not_lt hlast)) hwhole
      hgot hrest hstream

theorem readChunk (h : Follows fromSlice sent sending wire c) (hsizes : ∀ o ∈ sent, o.payload.length < 2 ^ 32)
    {chunk after : Wire Fd} (hwire : wire = chunk ++ after) (hread : c.readChunk fromSlice chunk = some c') :
    Follows fromSlice sent sending after c' := by
  obtain ⟨before, rest, hbegun, hrest, hstream⟩ := h.stream
  rw [hwire, ← List.append_assoc] at hstream
  rcases readChunk_cases hread with ⟨call, read, hheader, hle, hcase⟩ | ⟨call, fd, read, hbody, hle, rfl⟩
  · rw [hheader] at hbegun
    cases hbegun with
    | header filled len more cmsg got =>
    have htook := filled.took hle
    have hgot : (read.took chunk).got = firstFd (before ++ chunk) := by
      rw [firstFd_append, ← got, ReadFull.took]
      dsimp only
      rw [cmsg, Bool.true_and]
      cases read.got <;> rfl
    rcases hcase with ⟨hmore, rfl⟩ | ⟨hlast, rfl⟩
    · exact ⟨⟨before ++ chunk, rest, .header htook len hmore cmsg hgot, hrest, hstream⟩, h.delivered⟩
    · have hoff : (read.took chunk).off = read.len := hlast
      have hhead : (before ++ chunk).length = 4 := by
        rw [← htook.off, hoff, len]
      have hbytes : (read.took chunk).buf.take read.len = (before ++ chunk).map Prod.fst := by
        rw [← htook.bytes, hoff]
      rcases startBody_cases ({ c with consumed := true, taken := c.taken + chunk.length } : DrmConn Fd Data) fromSlice
        call (read.took chunk).got ((read.took chunk).buf.take read.len) with heq | ⟨fd', buf, heq, hlen, -, hraw, hmsg⟩
      · rw [heq]
        exact h.closed ⟨chunk, hwire⟩
      · rw [heq]
        have hfilled : Filled ({ buf := buf, len := _, wantCmsg := false } : ReadFull Fd) [] :=
          ⟨rfl, rfl, Nat.zero_le _, hlen⟩
        refine readBody hsizes h.delivered hfilled hhead ?_ hraw ?_ hrest ?_
        · rw [hbytes]
        · intro hne
          rw [hmsg hne, hgot]
        · rw [List.append_nil]
          exact hstream
  · rw [hbody] at hbegun
    cases hbegun with
    | body filled length len more whole got =>
    rename_i head tail
    have htook := filled.took hle
    refine readBody hsizes h.delivered htook length len (fun out hout => ?_) got hrest ?_
    · rw [length_took (Nat.le_trans hle filled.fits.2)]
      exact whole out hout
    · rw [← List.append_assoc head tail chunk]
      exact hstream

/-- A call begins or ends without a byte. -/
theorem idle (h : Follows fromSlice sent sending wire c) (hbegun : ∀ chunk, Partial c.receiving chunk → chunk = [])
    {receiving : Receiving Fd} (hnew : Partial receiving []) {consumed : Bool} {begun : Nat} {nones : List (Nat × Nat)} :
    Follows fromSlice sent sending wire
      { c with receiving := receiving, consumed := consumed, begun := begun, nones := nones } := by
  obtain ⟨chunk, rest, hchunk, hrest, hstream⟩ := h.stream
  obtain rfl := hbegun chunk hchunk
  exact ⟨⟨[], rest, hnew, hrest, hstream⟩, h.delivered⟩

theorem receive (h : Follows fromSlice sent sending wire c) (hquiet : c.Quiet) {e : DrmConn.Event Fd}
    (hne : ∀ chunk, e ≠ .readChunk chunk) (hstep : c.step fromSlice e = some c') :
    Follows fromSlice sent sending wire c' := by
  cases e with
  | recv call =>
    obtain ⟨hidle, hcase⟩ := recv_cases hstep
    have hempty : ∀ chunk, Partial c.receiving chunk → chunk = [] := by
      intro chunk hchunk
      rw [hidle] at hchunk
      cases hchunk
      rfl
    rcases hcase with rfl | rfl
    · exact h.idle hempty .readable
    · exact h.idle hempty (Partial.fresh call)
  | ready =>
    obtain ⟨hreadable, rfl⟩ := ready_cases hstep
    refine h.idle (fun chunk hchunk => ?_) (Partial.fresh _)
    rw [hreadable] at hchunk
    cases hchunk
    rfl
  | readChunk chunk => exact absurd rfl (hne chunk)
  | timeout =>
    rcases timeout_cases hstep with rfl | ⟨rfl, hnone⟩
    · exact h.closed ⟨[], rfl⟩
    · refine h.idle (fun chunk hchunk => ?_) .idle
      rcases hnone with hreadable | ⟨hconsumed, ⟨read, hheader⟩ | ⟨fd, read, hbody⟩⟩
      · rw [hreadable] at hchunk
        cases hchunk
        rfl
      · have hoff := (hquiet.header _ read hheader (fun out heq => by cases heq) hconsumed).2
        rw [hheader] at hchunk
        cases hchunk with
        | header filled len more cmsg got => exact List.length_eq_zero_iff.1 (filled.off.symm.trans hoff)
      · rw [hquiet.body _ fd read hbody] at hconsumed
        cases hconsumed
  | fail =>
    obtain rfl := fail_cases hstep
    exact h.closed ⟨[], rfl⟩

end Follows

namespace DrmLink

variable {toVec : Data → Option (List UInt8)} {fromSlice : List UInt8 → Option Data} {s s' : DrmLink Fd Data}

structure Inv (fromSlice : List UInt8 → Option Data) (s : DrmLink Fd Data) : Prop where
  quiet : s.conn.Quiet
  sizes : ∀ o ∈ s.sent, o.payload.length < 2 ^ 32
  follows : Follows fromSlice s.sent s.sending s.wire s.conn

theorem Inv.failed (h : Inv fromSlice s) : Inv fromSlice { s with sending := .failed } := by
  obtain ⟨chunk, rest, hchunk, -, hstream⟩ := h.follows.stream
  exact ⟨h.quiet, h.sizes, ⟨⟨chunk, rest, hchunk, trivial, hstream⟩, h.follows.delivered⟩⟩

theorem Inv.send (h : Inv fromSlice s) {x : Send Fd Data} (hsend : s.send toVec x = some s') : Inv fromSlice s' := by
  unfold DrmLink.send at hsend
  split at hsend
  · rename_i hidle
    split at hsend
    · rename_i o ho
      split at hsend
      · rename_i sending hframe
        cases hsend
        unfold drmSendFrame at hframe
        split at hframe
        · cases hframe
        · rename_i hsize
          cases hframe
          obtain ⟨chunk, rest, hchunk, hrest, hstream⟩ := h.follows.stream
          rw [hidle] at hrest
          obtain rfl : rest = [] := hrest
          refine ⟨h.quiet, fun o' ho' => ?_, ⟨⟨chunk, _, hchunk, rfl, ?_⟩, fun i r hi => ?_⟩⟩
          · rcases List.mem_append.1 ho' with hold | hnew
            · exact h.sizes o' hold
            · rw [List.mem_singleton.1 hnew]
              exact Nat.lt_of_not_le hsize
          · have hle : s.conn.received.length ≤ s.sent.length := by
              by_contra hlt
              have hget : s.sent.length < s.conn.received.length := by omega
              obtain ⟨o', ho', -⟩ := h.follows.delivered _ _ (List.getElem?_eq_getElem hget)
              rw [List.getElem?_eq_none (Nat.le_refl _)] at ho'
              cases ho'
            rw [List.append_nil] at hstream
            dsimp only
            rw [hstream, List.drop_append_of_le_length hle, frames, frames, List.flatMap_append, List.flatMap_singleton]
            rfl
          · obtain ⟨o', ho', hdel⟩ := h.follows.delivered i r hi
            exact ⟨o', List.getElem?_append_left (List.getElem?_eq_some_iff.1 ho').1 ▸ ho', hdel⟩
      · cases hsend
        exact h.failed
    · cases hsend
      exact h.failed
  · cases hsend

theorem Inv.step (h : Inv fromSlice s) {e : Event Fd Data} (hstep : s.step toVec fromSlice e = some s') :
    Inv fromSlice s' := by
  cases e with
  | send x => exact h.send hstep
  | write n =>
    obtain ⟨⟨chunk, sending⟩, hwrite, rfl⟩ := Option.map_eq_some_iff.1 hstep
    obtain ⟨before, rest, hbefore, hrest, hstream⟩ := h.follows.stream
    obtain ⟨rest', rfl, hrest'⟩ := Sending.unsent_drmWriteAll hrest hwrite
    refine ⟨h.quiet, h.sizes, ⟨⟨before, rest', hbefore, hrest', ?_⟩, h.follows.delivered⟩⟩
    dsimp only
    rw [← hstream, List.append_assoc, List.append_assoc, List.append_assoc]
  | sendFails =>
    cases hstep
    exact h.failed
  | read n =>
    unfold DrmLink.step at hstep
    dsimp only at hstep
    split at hstep
    · obtain ⟨conn, hread, rfl⟩ := Option.map_eq_some_iff.1 hstep
      exact ⟨h.quiet.step (e := .readChunk (s.wire.take n)) hread, h.sizes,
        h.follows.readChunk h.sizes (List.take_append_drop n s.wire).symm hread⟩
    · cases hstep
  | receive e =>
    cases e with
    | readChunk chunk => cases hstep
    | recv call =>
      obtain ⟨conn, hconn, rfl⟩ := Option.map_eq_some_iff.1 hstep
      exact ⟨h.quiet.step hconn, h.sizes, h.follows.receive h.quiet (fun chunk heq => by cases heq) hconn⟩
    | ready =>
      obtain ⟨conn, hconn, rfl⟩ := Option.map_eq_some_iff.1 hstep
      exact ⟨h.quiet.step hconn, h.sizes, h.follows.receive h.quiet (fun chunk heq => by cases heq) hconn⟩
    | timeout =>
      obtain ⟨conn, hconn, rfl⟩ := Option.map_eq_some_iff.1 hstep
      exact ⟨h.quiet.step hconn, h.sizes, h.follows.receive h.quiet (fun chunk heq => by cases heq) hconn⟩
    | fail =>
      obtain ⟨conn, hconn, rfl⟩ := Option.map_eq_some_iff.1 hstep
      exact ⟨h.quiet.step hconn, h.sizes, h.follows.receive h.quiet (fun chunk heq => by cases heq) hconn⟩

theorem Inv.init (h : Init s) : Inv fromSlice s := by
  obtain rfl : s = {} := h
  refine ⟨⟨fun heq => ?_, fun _ _ heq => ?_, fun _ _ _ heq => ?_, fun p hp => ?_⟩, fun o ho => ?_,
    ⟨⟨[], [], .idle, rfl, rfl⟩, fun i r hi => ?_⟩⟩
  · cases heq
  · cases heq
  · cases heq
  · cases hp
  · cases ho
  · cases hi

/-- For any turns of the loops at both ends: the receives that return `Ok` are those of the first sends, each with
its payload and its descriptor, and `None` was returned with nothing read. For any bytes at all, no buffer is
longer than its cap. -/
theorem received_as_sent {h : List (DrmLink Fd Data × Event Fd Data)} (hx : Exec Init (step toVec fromSlice) h s)
    {hc : List (DrmConn Fd Data × DrmConn.Event Fd)} {c : DrmConn Fd Data}
    (hcx : Exec (· = {}) (DrmConn.step fromSlice) hc c) :
    (∀ (i : Nat) (r : Received Fd Data), s.conn.received[i]? = some r →
      ∃ o, s.sent[i]? = some o ∧ Delivers fromSlice o r) ∧
    (∀ p ∈ s.conn.nones, p.1 = p.2) ∧
    c.readBuf.length ≤ MAX_DRM_JSON_BYTES ∧
    (∀ call fd read, c.receiving = .body call fd read → read.buf.length ≤ call.cap) ∧
    ∀ out, .raw out ∈ c.received → out.length ≤ MAX_DRM_RAW_BYTES := by
  have hinv : Inv fromSlice s :=
    hx.invariant (I := Inv fromSlice) (fun _ => Inv.init) fun _ _ _ hi hstep => hi.step hstep
  have hbounded : c.Bounded := by
    refine hcx.invariant (I := DrmConn.Bounded) ?_ fun _ _ _ hi hstep => hi.step hstep
    rintro c rfl
    refine ⟨Nat.zero_le _, fun _ _ heq => ?_, fun _ _ _ heq => ?_, fun out hout => ?_⟩
    · cases heq
    · cases heq
    · cases hout
  exact ⟨hinv.follows.delivered, hinv.quiet.nones, hbounded.readBuf,
    fun call fd read heq => (hbounded.body call fd read heq).2.2, hbounded.received⟩

/-- A message with descriptor 7 and one without, written and read in pieces; the second is on its way
before the first has been read. -/
def twoMessages : List (Event Nat (List UInt8)) :=
  [.receive (.recv .recvMsgTimeout2), .receive .timeout, .send (.sendMsg [104] (some 7)), .write 1,
    .receive (.recv .recvMsgTimeout2), .receive .ready, .read 1, .write 3, .read 3, .write 1,
    .send (.sendMsg [1, 2] none), .write 4, .read 1, .receive (.recv .recvMsg), .read 2, .write 1, .read 2,
    .read 1, .write 1, .read 1]

theorem received_as_sent_twice : ∃ s, runs (@step Nat (List UInt8) some some) {} twoMessages = some s ∧
    s.conn.received = [.msg [104] (some 7), .msg [1, 2] none] ∧ s.conn.nones = [(0, 0)] ∧
    (∃ o, s.sent[0]? = some o ∧ some o.payload = some [104] ∧ some 7 = o.fd) ∧
    ∃ o, s.sent[1]? = some o ∧ some o.payload = some [1, 2] ∧ none = o.fd := by
  obtain ⟨r, hr⟩ : ∃ r, trace (@step Nat (List UInt8) some some) {} twoMessages = some r := ⟨_, rfl⟩
  have hstart : Exec Init (@step Nat (List UInt8) some some) [] {} := .start rfl
  have hx := hstart.trace hr
  cases hr
  have hcx : Exec (· = {}) (DrmConn.step some) [] ({} : DrmConn Nat (List UInt8)) := .start rfl
  obtain ⟨hreceived, -⟩ := received_as_sent hx hcx
  exact ⟨_, rfl, rfl, rfl, hreceived 0 (.msg [104] (some 7)) rfl, hreceived 1 (.msg [1, 2] none) rfl⟩

end DrmLink

end FontisRemote.Drm
