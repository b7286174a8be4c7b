import FontisRemote.Lib.Slots
import FontisRemote.WebRtc.Fragment

/-!
# What `next` returns is what was sent

The fragments on the wire are the blocks of the messages sent, one after the other, and then the first
fragments of one more at most (`Link.Sends`). What `next` has returned until it first failed are the
blocks of the part that was read, and `acc` is what has been read of the next (`Link.Receives`).
-/

namespace FontisRemote.WebRtc

open FontisRemote.Lib

namespace Returned

def isMessage : Returned → Bool
  | .message .. => true
  | _ => false

/-- The two complaints about the framing. -/
def isViolation : Returned → Bool
  | .noPayload => true
  | .badHeader _ => true
  | _ => false

/-- The messages before the first failure. -/
def messages : List Returned → List (List UInt8)
  | .message msg _ _ :: rest => msg :: messages rest
  | _ => []

variable {returned : List Returned}

theorem messages_snoc (h : ∀ r ∈ returned, r.isMessage) (r : Returned) :
    messages (returned ++ [r]) = messages returned ++ messages [r] := by
  induction returned with
  | nil => rfl
  | cons first rest ih =>
    have hfirst := h first (List.mem_cons_self ..)
    cases first with
    | message msg calls limit =>
      rw [List.cons_append, messages, messages, List.cons_append,
        ih fun r hr => h r (List.mem_cons_of_mem _ hr)]
    | _ => simp [isMessage] at hfirst

theorem messages_snoc_of_failed (h : ¬ ∀ r ∈ returned, r.isMessage) (r : Returned) :
    messages (returned ++ [r]) = messages returned := by
  induction returned with
  | nil => simp at h
  | cons first rest ih =>
    cases first with
    | message msg calls limit =>
      have hrest : ¬ ∀ r ∈ rest, r.isMessage := by
        intro hall
        refine h fun r hr => ?_
        obtain rfl | hr := List.mem_cons.mp hr
        · rfl
        · exact hall r hr
      rw [List.cons_append, messages, messages, ih hrest]
    | _ => rfl

/-- A failure ends the messages. -/
theorem messages_snoc_failure {r : Returned} (hr : r.isMessage = false) :
    messages (returned ++ [r]) = messages returned := by
  by_cases h : ∀ r ∈ returned, r.isMessage
  · rw [messages_snoc h]
    cases r with
    | message msg calls limit => simp [isMessage] at hr
    | _ => simp [messages]
  · exact messages_snoc_of_failed h r

end Returned

/-! ## The fragments of a call -/

namespace Fragment

/-- The outcome of the loop of `next` on a fragment that a sender writes. -/
theorem Proper.take {fragment : Fragment} (h : fragment.Proper) (recv : RecvState) (limit : Nat) :
    (limit < recv.acc.length + fragment.payload.length ∧
      recv.take limit fragment = ({}, some (.tooBig limit))) ∨
    (recv.acc.length + fragment.payload.length ≤ limit ∧ fragment.isEnd = false ∧
      recv.take limit fragment =
        (⟨recv.acc ++ fragment.payload, recv.calls ++ [fragment.call]⟩, none)) ∨
    (recv.acc.length + fragment.payload.length ≤ limit ∧ fragment.isEnd = true ∧
      ∃ calls, (calls = recv.calls ++ [fragment.call] ∨ calls = [fragment.call]) ∧
        recv.take limit fragment =
          ({}, some (.message (recv.acc ++ fragment.payload) calls limit))) := by
  obtain ⟨framed, call⟩ := fragment
  obtain ⟨hfits, hproper⟩ := h
  have hread : ¬ framed.length > RECV_BUF_SIZE := Nat.not_lt.mpr hfits
  unfold RecvState.take
  rw [if_neg hread]
  obtain ⟨payload, rfl | ⟨rfl, hne⟩⟩ := hproper
  · have hmore : FRAG_END ≠ FRAG_MORE := by decide
    by_cases hlimit : limit < recv.acc.length + payload.length
    · exact .inl ⟨hlimit, by simp [hmore, hlimit]⟩
    · refine .inr (.inr ⟨Nat.not_lt.mp hlimit, rfl, ?_⟩)
      by_cases hacc : recv.acc = []
      · refine ⟨[call], .inr rfl, ?_⟩
        rw [hacc, List.length_nil, Nat.zero_add] at hlimit
        simp [hmore, hlimit, hacc, Fragment.payload]
      · refine ⟨recv.calls ++ [call], .inl rfl, ?_⟩
        simp [hmore, hlimit, hacc, Fragment.payload]
  · have hend : FRAG_MORE ≠ FRAG_END := by decide
    by_cases hlimit : limit < recv.acc.length + payload.length
    · exact .inl ⟨hlimit, by simp [hend, hlimit, hne]⟩
    · refine .inr (.inl ⟨Nat.not_lt.mp hlimit, rfl, ?_⟩)
      simp [hend, hlimit, hne, Fragment.payload]

end Fragment

namespace Link

/-- The fragments are of one call, and carry the beginning of its message. -/
def FromCall (begun : List (List UInt8)) (block : List Fragment) (call : Nat) : Prop :=
  (∀ fragment ∈ block, fragment.call = call) ∧
    ∃ data, begun[call]? = some data ∧ Fragment.join block <+: data

theorem FromCall.mono {begun : List (List UInt8)} {block : List Fragment} {call : Nat}
    (h : FromCall begun block call) (data : List UInt8) : FromCall (begun ++ [data]) block call := by
  obtain ⟨hcall, own, hown, hpre⟩ := h
  refine ⟨hcall, own, ?_, hpre⟩
  rw [List.getElem?_append_left (List.getElem?_eq_some_iff.mp hown).1, hown]

theorem FromCall.of_append {begun : List (List UInt8)} {block more : List Fragment} {call : Nat}
    (h : FromCall begun (block ++ more) call) : FromCall begun block call := by
  obtain ⟨hcall, own, hown, hpre⟩ := h
  refine ⟨fun f hf => hcall f (List.mem_append_left _ hf), own, hown, ?_⟩
  rw [Fragment.join_append] at hpre
  exact (List.prefix_append ..).trans hpre

/-- The state of the sending side. -/
structure Sends (l : Link) : Prop where
  proper : ∀ fragment ∈ l.wire, fragment.Proper
  sent : (complete Fragment.isEnd l.wire).map Fragment.join = l.sent
  block : ∀ block ∈ complete Fragment.isEnd l.wire, ∃ call, FromCall l.begun block call
  tail : remainder Fragment.isEnd l.wire = [] ∨
    ∃ call, FromCall l.begun (remainder Fragment.isEnd l.wire) call
  /-- Nobody gets the permit after a message that was torn while the connection is open. -/
  free : l.isOpen = true → l.gate = .free → remainder Fragment.isEnd l.wire = []
  held : ∀ send, l.gate = .held send →
    l.begun[send.call]? = some send.data ∧ send.offset ≤ send.data.length
  written : ∀ send, l.isOpen = true → l.gate = .held send →
    Fragment.join (remainder Fragment.isEnd l.wire) = send.data.take send.offset ∧
      (∀ fragment ∈ remainder Fragment.isEnd l.wire, fragment.call = send.call) ∧
      (send.wroteAny = false → remainder Fragment.isEnd l.wire = [])

variable {l l' : Link}

/-- The receiving side changes nothing of it. -/
theorem Sends.congr (h : l.Sends) (hwire : l'.wire = l.wire) (hopen : l'.isOpen = l.isOpen)
    (hgate : l'.gate = l.gate) (hbegun : l'.begun = l.begun) (hsent : l'.sent = l.sent) : l'.Sends := by
  constructor
  · exact hwire ▸ h.proper
  · rw [hwire, hsent, h.sent]
  · rw [hwire, hbegun]
    exact h.block
  · rw [hwire, hbegun]
    exact h.tail
  · rw [hwire, hopen, hgate]
    exact h.free
  · rw [hgate, hbegun]
    exact h.held
  · rw [hwire, hopen, hgate]
    exact h.written

/-- A call that got the permit and has written nothing yet. -/
theorem Sends.begin (h : l.Sends) (hgate : l.gate = .free) (data : List UInt8) :
    Sends { l with gate := .held { call := l.begun.length, data := data },
                   begun := l.begun ++ [data] } where
  proper := h.proper
  sent := h.sent
  block := fun block hblock => (h.block block hblock).imp fun _ hcall => hcall.mono data
  tail := h.tail.imp_right fun ⟨call, hcall⟩ => ⟨call, hcall.mono data⟩
  free := fun _ hfree => by cases hfree
  held := fun send hheld => by
    cases hheld
    exact ⟨List.getElem?_concat_length, Nat.zero_le _⟩
  written := fun send hopen hheld => by
    cases hheld
    have hnone := h.free hopen hgate
    simp [hnone]

/-- The permit goes elsewhere: to the task that closes, or back where nothing was written. -/
theorem Sends.release (h : l.Sends) {gate : Gate} (hno : ∀ send, gate ≠ .held send)
    (hfree : l.isOpen = true → gate = .free → remainder Fragment.isEnd l.wire = []) :
    Sends { l with gate := gate } where
  proper := h.proper
  sent := h.sent
  block := h.block
  tail := h.tail
  free := hfree
  held := fun send hheld => (hno send hheld).elim
  written := fun send _ hheld => (hno send hheld).elim

theorem Sends.shut (h : l.Sends) : Sends { l with isOpen := false } where
  proper := h.proper
  sent := h.sent
  block := h.block
  tail := h.tail
  free := fun hopen => by cases hopen
  held := h.held
  written := fun _ hopen => by cases hopen

/-- One turn of the loop of `send_bytes_inner`. -/
theorem Sends.write (h : l.Sends) (hwrite : l.write = some l') : l'.Sends := by
  unfold Link.write at hwrite
  split at hwrite
  case h_2 => cases hwrite
  rename_i send hgate
  obtain ⟨hdata, hoffset⟩ := h.held send hgate
  split at hwrite
  case isFalse => cases hwrite
  rename_i hopen
  obtain ⟨hjoin, hcalls, -⟩ := h.written send hopen hgate
  have hproper : ∀ fragment ∈ l.wire ++ [⟨send.framed, send.call⟩], fragment.Proper := by
    intro fragment hmem
    obtain hmem | hmem := List.mem_append.mp hmem
    · exact h.proper fragment hmem
    · rw [List.mem_singleton.mp hmem]
      exact send.proper_framed hoffset _
  -- the block as it is with this fragment
  have hjoin' : Fragment.join (remainder Fragment.isEnd l.wire ++ [⟨send.framed, send.call⟩]) =
      send.data.take send.stop := by
    rw [Fragment.join_append, Fragment.join_singleton, hjoin, Send.payload_framed,
      send.take_append_chunk hoffset]
  have hcalls' : ∀ fragment ∈ remainder Fragment.isEnd l.wire ++ [⟨send.framed, send.call⟩],
      fragment.call = send.call := by
    intro fragment hmem
    obtain hmem | hmem := List.mem_append.mp hmem
    · exact hcalls fragment hmem
    · rw [List.mem_singleton.mp hmem]
  have hfrom : FromCall l.begun (remainder Fragment.isEnd l.wire ++ [⟨send.framed, send.call⟩])
      send.call :=
    ⟨hcalls', send.data, hdata, hjoin' ▸ List.take_prefix ..⟩
  cases hlast : send.isLast with
  | true =>
    simp only [hlast, if_true, Option.some.injEq] at hwrite
    subst hwrite
    have hend : Fragment.isEnd ⟨send.framed, send.call⟩ = true := by rw [Send.isEnd_framed, hlast]
    have hcomplete := complete_snoc_last l.wire hend
    have hremainder := remainder_snoc_last l.wire hend
    constructor
    · exact hproper
    · dsimp only
      rw [hcomplete, List.map_append, h.sent, List.map_singleton, hjoin',
        send.take_stop_of_isLast hlast]
    · dsimp only
      rw [hcomplete]
      intro block hmem
      obtain hmem | hmem := List.mem_append.mp hmem
      · exact h.block block hmem
      · rw [List.mem_singleton.mp hmem]
        exact ⟨send.call, hfrom⟩
    · exact .inl hremainder
    · exact fun _ _ => hremainder
    · exact fun _ hheld => by cases hheld
    · exact fun _ _ hheld => by cases hheld
  | false =>
    simp only [hlast, Bool.false_eq_true, if_false, Option.some.injEq] at hwrite
    subst hwrite
    have hmore : Fragment.isEnd ⟨send.framed, send.call⟩ = false := by rw [Send.isEnd_framed, hlast]
    have hcomplete := complete_snoc_more l.wire hmore
    have hremainder := remainder_snoc_more l.wire hmore
    constructor
    · exact hproper
    · dsimp only
      rw [hcomplete, h.sent]
    · dsimp only
      rw [hcomplete]
      exact h.block
    · dsimp only
      rw [hremainder]
      exact .inr ⟨send.call, hfrom⟩
    · exact fun _ hfree => by cases hfree
    · intro _ hheld
      cases hheld
      exact ⟨hdata, Nat.min_le_right _ _⟩
    · intro _ _ hheld
      cases hheld
      dsimp only
      rw [hremainder]
      exact ⟨hjoin', hcalls', fun hwrote => by cases hwrote⟩

theorem Sends.step (h : l.Sends) {e : Event} (hstep : l.step e = some l') : l'.Sends := by
  cases e with
  | sendBytes data =>
    simp only [Link.step, Link.sendBytes] at hstep
    split at hstep
    case h_2 => cases hstep
    rename_i hgate
    split at hstep
    · cases hstep
      exact h
    · cases hstep
      exact h.begin hgate data
  | write => exact h.write hstep
  | writeFails =>
    simp only [Link.step, Link.writeFails] at hstep
    split at hstep
    case h_2 => cases hstep
    rename_i send hgate
    cases hstep
    apply h.release
    · intro other
      split <;> simp
    · intro hopen hfree
      -- the permit comes back only where nothing was written
      split at hfree
      · cases hfree
      · rename_i hwrote
        exact (h.written send hopen hgate).2.2 (Bool.eq_false_iff.mpr hwrote)
  | sendTimesOut =>
    simp only [Link.step, Link.sendTimesOut] at hstep
    split at hstep
    case h_2 => cases hstep
    cases hstep
    exact h.release (by simp) (by simp)
  | closed =>
    simp only [Link.step] at hstep
    split at hstep
    case isFalse => cases hstep
    cases hstep
    exact h.shut.release (by simp) (by simp)
  | shut =>
    cases hstep
    exact h.shut
  | read =>
    simp only [Link.step, Link.read] at hstep
    split at hstep
    case h_2 => cases hstep
    split at hstep <;> cases hstep <;> exact h.congr rfl rfl rfl rfl rfl
  | next =>
    simp only [Link.step] at hstep
    split at hstep <;> cases hstep
    exact h.congr rfl rfl rfl rfl rfl
  | cancel =>
    simp only [Link.step] at hstep
    split at hstep <;> cases hstep
    exact h.congr rfl rfl rfl rfl rfl
  | readEnds =>
    simp only [Link.step] at hstep
    split at hstep <;> cases hstep
    exact h.congr rfl rfl rfl rfl rfl
  | readFails =>
    simp only [Link.step] at hstep
    split at hstep <;> cases hstep
    exact h.congr rfl rfl rfl rfl rfl
  | nextFails =>
    cases hstep
    exact h.congr rfl rfl rfl rfl rfl
  | setMaxPacketLength n =>
    cases hstep
    exact h.congr rfl rfl rfl rfl rfl

/-! ## The receiving side -/

/-- What has been read. -/
def seen (l : Link) : List Fragment :=
  l.wire.take l.cursor

theorem seen_succ {fragment : Fragment} (hnext : l.wire[l.cursor]? = some fragment) :
    l.wire.take (l.cursor + 1) = l.seen ++ [fragment] := by
  rw [List.take_add_one, hnext]
  rfl

/-- With the fragment that is read next, what has been read of a message is still of one call. -/
theorem Sends.next_fromCall (h : l.Sends) {fragment : Fragment}
    (hnext : l.wire[l.cursor]? = some fragment) :
    ∃ call, FromCall l.begun (remainder Fragment.isEnd l.seen ++ [fragment]) call := by
  have hwire : l.wire = (l.seen ++ [fragment]) ++ l.wire.drop (l.cursor + 1) := by
    rw [← seen_succ hnext, List.take_append_drop]
  cases hend : fragment.isEnd with
  | true =>
    apply h.block
    rw [hwire]
    apply (complete_append _ _ _).subset
    rw [complete_snoc_last _ hend]
    exact List.mem_append_right _ (List.mem_singleton_self _)
  | false =>
    have hremainder := remainder_snoc_more l.seen hend
    rw [← hremainder]
    obtain ⟨block, hmem, more, rfl⟩ | ⟨more, hmore⟩ :=
      remainder_append Fragment.isEnd (l.seen ++ [fragment]) (l.wire.drop (l.cursor + 1))
    · rw [← hwire] at hmem
      obtain ⟨call, hcall⟩ := h.block _ hmem
      exact ⟨call, hcall.of_append⟩
    · rw [← hwire] at hmore
      obtain hnil | ⟨call, hcall⟩ := h.tail
      · rw [← hmore, hremainder] at hnil
        simp at hnil
      · rw [← hmore] at hcall
        exact ⟨call, hcall.of_append⟩

/-- The state of the receiving side. -/
structure Receives (l : Link) : Prop where
  behind : l.cursor ≤ l.wire.length
  /-- `acc` has the last fragments read of a message, -/
  acc : ∃ kept, kept <:+ remainder Fragment.isEnd l.seen ∧ l.recv.acc = Fragment.join kept ∧
    l.recv.calls = kept.map Fragment.call
  /-- and all of them unless `next` has failed. -/
  clean : (∀ r ∈ l.returned, r.isMessage) →
    Returned.messages l.returned = (complete Fragment.isEnd l.seen).map Fragment.join ∧
      l.recv.acc = Fragment.join (remainder Fragment.isEnd l.seen)
  messages : Returned.messages l.returned <+: (complete Fragment.isEnd l.seen).map Fragment.join
  single : ∀ msg calls limit, .message msg calls limit ∈ l.returned →
    msg.length ≤ limit ∧ ∃ call, call < l.begun.length ∧ calls ≠ [] ∧ ∀ c ∈ calls, c = call
  polite : ∀ r ∈ l.returned, r.isViolation = false
  tooBig : ∀ before limit after, l.returned = before ++ .tooBig limit :: after →
    (∀ r ∈ before, r.isMessage) → ∃ data ∈ l.begun, limit < data.length

/-- The sending side adds to the wire and to the calls. -/
theorem Receives.grow (h : l.Receives) (hwire : l.wire <+: l'.wire) (hbegun : l.begun <+: l'.begun)
    (hcursor : l'.cursor = l.cursor) (hrecv : l'.recv = l.recv)
    (hreturned : l'.returned = l.returned) : l'.Receives := by
  obtain ⟨more, hmore⟩ := hwire
  have hseen : l'.seen = l.seen := by
    unfold seen
    rw [← hmore, hcursor, List.take_append_of_le_length h.behind]
  constructor
  · rw [hcursor, ← hmore, List.length_append]
    exact Nat.le_add_right_of_le h.behind
  · rw [hseen, hrecv]
    exact h.acc
  · rw [hseen, hrecv, hreturned]
    exact h.clean
  · rw [hseen, hreturned]
    exact h.messages
  · intro msg calls limit hmem
    obtain ⟨hlen, call, hcall, hrest⟩ := h.single msg calls limit (hreturned ▸ hmem)
    exact ⟨hlen, call, hcall.trans_le hbegun.length_le, hrest⟩
  · rw [hreturned]
    exact h.polite
  · intro before limit after hsplit hbefore
    obtain ⟨data, hdata, hlimit⟩ := h.tooBig before limit after (hreturned ▸ hsplit) hbefore
    exact ⟨data, hbegun.subset hdata, hlimit⟩

/-- A failure of `next`, on the fragment that is read next or on none. -/
theorem Receives.fail (h : l.Receives) {r : Returned} (hmsg : r.isMessage = false)
    (hpolite : r.isViolation = false)
    (hbig : ∀ limit, r = .tooBig limit → (∀ r ∈ l.returned, r.isMessage) →
      ∃ data ∈ l.begun, limit < data.length)
    (hwire : l'.wire = l.wire) (hbegun : l'.begun = l.begun)
    (hseen : l.seen <+: l'.seen) (hbehind : l'.cursor ≤ l.wire.length)
    (hacc : ∃ kept, kept <:+ remainder Fragment.isEnd l'.seen ∧ l'.recv.acc = Fragment.join kept ∧
      l'.recv.calls = kept.map Fragment.call)
    (hreturned : l'.returned = l.returned ++ [r]) : l'.Receives := by
  have hin : ∀ q ∈ l'.returned, q ∈ l.returned ∨ q = r := by
    intro q hq
    rw [hreturned] at hq
    exact (List.mem_append.mp hq).imp_right List.mem_singleton.mp
  constructor
  · rwa [hwire]
  · exact hacc
  · intro hclean
    have := hclean r (hreturned ▸ List.mem_append_right _ (List.mem_singleton_self _))
    rw [hmsg] at this
    cases this
  · obtain ⟨more, hmore⟩ := hseen
    rw [hreturned, Returned.messages_snoc_failure hmsg, ← hmore]
    exact h.messages.trans ((complete_append _ _ _).map _)
  · intro msg calls limit hmem
    rw [hbegun]
    obtain hmem | rfl := hin _ hmem
    · exact h.single msg calls limit hmem
    · cases hmsg
  · intro q hq
    obtain hq | rfl := hin q hq
    · exact h.polite q hq
    · exact hpolite
  · intro before limit after hsplit hbefore
    rw [hbegun]
    rw [hreturned] at hsplit
    obtain ⟨rest, hrest⟩ | ⟨rfl, rfl⟩ := split_snoc hsplit
    · exact h.tooBig before limit rest hrest hbefore
    · exact hbig limit rfl hbefore

/-- A fragment after which more follow. -/
theorem Receives.more (h : l.Receives) {fragment : Fragment}
    (hnext : l.wire[l.cursor]? = some fragment) (hmore : fragment.isEnd = false) :
    Receives { l with cursor := l.cursor + 1,
                      recv := ⟨l.recv.acc ++ fragment.payload, l.recv.calls ++ [fragment.call]⟩ } := by
  have hcomplete : complete Fragment.isEnd (l.wire.take (l.cursor + 1)) =
      complete Fragment.isEnd l.seen := by
    rw [seen_succ hnext, complete_snoc_more _ hmore]
  have hremainder : remainder Fragment.isEnd (l.wire.take (l.cursor + 1)) =
      remainder Fragment.isEnd l.seen ++ [fragment] := by
    rw [seen_succ hnext, remainder_snoc_more _ hmore]
  refine ⟨(List.getElem?_eq_some_iff.mp hnext).1, ?_, ?_, ?_, h.single, h.polite, h.tooBig⟩
  · obtain ⟨kept, ⟨dropped, hkept⟩, hacc, hcalls⟩ := h.acc
    refine ⟨kept ++ [fragment], ⟨dropped, ?_⟩, ?_, ?_⟩
    · rw [← List.append_assoc, hkept]
      exact hremainder.symm
    · rw [Fragment.join_append, Fragment.join_singleton, ← hacc]
    · rw [List.map_append, ← hcalls, List.map_singleton]
  · intro hclean
    obtain ⟨hmessages, hacc⟩ := h.clean hclean
    refine ⟨hmessages.trans (congrArg _ hcomplete.symm), ?_⟩
    dsimp only [seen]
    rw [hremainder, Fragment.join_append, Fragment.join_singleton, hacc]
  · dsimp only [seen]
    rw [hcomplete]
    exact h.messages

/-- The last fragment of a message, when it is not too long. -/
theorem Receives.message (h : l.Receives) (hs : l.Sends) {fragment : Fragment}
    (hnext : l.wire[l.cursor]? = some fragment) (hend : fragment.isEnd = true)
    (hlimit : l.recv.acc.length + fragment.payload.length ≤ l.maxRecvMessage) {calls : List Nat}
    (hcalls : calls = l.recv.calls ++ [fragment.call] ∨ calls = [fragment.call]) :
    Receives (finish { l with cursor := l.cursor + 1 } {}
      (.message (l.recv.acc ++ fragment.payload) calls l.maxRecvMessage)) := by
  have hcomplete : complete Fragment.isEnd (l.wire.take (l.cursor + 1)) =
      complete Fragment.isEnd l.seen ++ [remainder Fragment.isEnd l.seen ++ [fragment]] := by
    rw [seen_succ hnext, complete_snoc_last _ hend]
  have hremainder : remainder Fragment.isEnd (l.wire.take (l.cursor + 1)) = [] := by
    rw [seen_succ hnext, remainder_snoc_last _ hend]
  refine ⟨(List.getElem?_eq_some_iff.mp hnext).1, ⟨[], List.nil_suffix, rfl, rfl⟩, ?_, ?_, ?_, ?_, ?_⟩
  · intro hclean
    have hbefore : ∀ r ∈ l.returned, r.isMessage := fun r hr =>
      hclean r (List.mem_append_left _ hr)
    obtain ⟨hmessages, hacc⟩ := h.clean hbefore
    dsimp only [finish, seen]
    rw [hcomplete, hremainder, Returned.messages_snoc hbefore, hmessages, List.map_append,
      List.map_singleton, Fragment.join_append, Fragment.join_singleton, hacc]
    exact ⟨rfl, rfl⟩
  · dsimp only [finish, seen]
    rw [hcomplete, List.map_append]
    by_cases hbefore : ∀ r ∈ l.returned, r.isMessage
    · obtain ⟨hmessages, hacc⟩ := h.clean hbefore
      refine ⟨[], ?_⟩
      rw [Returned.messages_snoc hbefore, hmessages, List.map_singleton, Fragment.join_append,
        Fragment.join_singleton, hacc, List.append_nil]
      rfl
    · rw [Returned.messages_snoc_of_failed hbefore]
      exact h.messages.trans (List.prefix_append ..)
  · intro msg others limit hmem
    obtain hmem | hmem := List.mem_append.mp hmem
    · exact h.single msg others limit hmem
    · obtain ⟨rfl, rfl, rfl⟩ : msg = l.recv.acc ++ fragment.payload ∧ others = calls ∧
          limit = l.maxRecvMessage := by
        simpa using hmem
      refine ⟨by rwa [List.length_append], ?_⟩
      -- whatever is left of the message in `acc` is of the call of this fragment
      obtain ⟨call, hof, data, hdata, -⟩ := hs.next_fromCall hnext
      obtain ⟨kept, hkept, -, hkeptCalls⟩ := h.acc
      have hown : fragment.call = call :=
        hof fragment (List.mem_append_right _ (List.mem_singleton_self _))
      refine ⟨call, (List.getElem?_eq_some_iff.mp hdata).1, ?_, ?_⟩
      · obtain rfl | rfl := hcalls <;> simp
      · intro c hc
        obtain hc | rfl : c ∈ l.recv.calls ∨ c = fragment.call := by
          obtain rfl | rfl := hcalls
          · simpa using hc
          · exact .inr (List.mem_singleton.mp hc)
        · rw [hkeptCalls] at hc
          obtain ⟨other, hother, rfl⟩ := List.mem_map.mp hc
          exact hof other (List.mem_append_left _ (hkept.subset hother))
        · exact hown
  · intro r hr
    obtain hr | hr := List.mem_append.mp hr
    · exact h.polite r hr
    · rw [List.mem_singleton.mp hr]
      rfl
  · intro before limit after hsplit hbefore
    obtain ⟨rest, hrest⟩ | ⟨-, hr⟩ := split_snoc hsplit
    · exact h.tooBig before limit rest hrest hbefore
    · cases hr

theorem Receives.read (h : l.Receives) (hs : l.Sends) (hread : l.read = some l') : l'.Receives := by
  unfold Link.read at hread
  split at hread
  case h_2 => cases hread
  rename_i fragment _ hnext
  obtain ⟨hinside, hget⟩ := List.getElem?_eq_some_iff.mp hnext
  have hproper : fragment.Proper := hs.proper fragment (hget ▸ List.getElem_mem hinside)
  obtain ⟨hlimit, htake⟩ | ⟨-, hmore, htake⟩ | ⟨hlimit, hend, calls, hcalls, htake⟩ :=
    hproper.take l.recv l.maxRecvMessage
  · rw [htake] at hread
    cases hread
    refine h.fail (r := .tooBig l.maxRecvMessage) rfl rfl ?_ rfl rfl ?_ hinside
      ⟨[], List.nil_suffix, rfl, rfl⟩ rfl
    · intro limit hr hclean
      cases hr
      obtain ⟨call, -, data, hdata, hpre⟩ := hs.next_fromCall hnext
      refine ⟨data, List.mem_of_getElem? hdata, ?_⟩
      have hlen := hpre.length_le
      rw [Fragment.join_append, Fragment.join_singleton, ← (h.clean hclean).2,
        List.length_append] at hlen
      omega
    · exact ⟨[fragment], (seen_succ hnext).symm⟩
  · rw [htake] at hread
    cases hread
    exact h.more hnext hmore
  · rw [htake] at hread
    cases hread
    exact h.message hs hnext hend hlimit hcalls

theorem Receives.step (h : l.Receives) (hs : l.Sends) {e : Event} (hstep : l.step e = some l') :
    l'.Receives := by
  cases e with
  | sendBytes data =>
    simp only [Link.step, Link.sendBytes] at hstep
    split at hstep
    case h_2 => cases hstep
    split at hstep
    · cases hstep
      exact h
    · cases hstep
      exact h.grow List.prefix_rfl (List.prefix_append ..) rfl rfl rfl
  | write =>
    simp only [Link.step, Link.write] at hstep
    split at hstep
    case h_2 => cases hstep
    split at hstep
    case isFalse => cases hstep
    split at hstep <;> cases hstep <;>
      exact h.grow (List.prefix_append ..) List.prefix_rfl rfl rfl rfl
  | writeFails =>
    simp only [Link.step, Link.writeFails] at hstep
    split at hstep <;> cases hstep
    exact h.grow List.prefix_rfl List.prefix_rfl rfl rfl rfl
  | sendTimesOut =>
    simp only [Link.step, Link.sendTimesOut] at hstep
    split at hstep <;> cases hstep
    exact h.grow List.prefix_rfl List.prefix_rfl rfl rfl rfl
  | closed =>
    simp only [Link.step] at hstep
    split at hstep <;> cases hstep
    exact h.grow List.prefix_rfl List.prefix_rfl rfl rfl rfl
  | shut =>
    cases hstep
    exact h.grow List.prefix_rfl List.prefix_rfl rfl rfl rfl
  | next =>
    simp only [Link.step] at hstep
    split at hstep <;> cases hstep
    exact h.grow List.prefix_rfl List.prefix_rfl rfl rfl rfl
  | cancel =>
    simp only [Link.step] at hstep
    split at hstep <;> cases hstep
    exact h.grow List.prefix_rfl List.prefix_rfl rfl rfl rfl
  | setMaxPacketLength n =>
    cases hstep
    exact h.grow List.prefix_rfl List.prefix_rfl rfl rfl rfl
  | nextFails =>
    cases hstep
    exact h.fail rfl rfl (by simp) rfl rfl List.prefix_rfl h.behind h.acc rfl
  | readEnds =>
    simp only [Link.step] at hstep
    split at hstep <;> cases hstep
    exact h.fail rfl rfl (by simp) rfl rfl List.prefix_rfl h.behind
      ⟨[], List.nil_suffix, rfl, rfl⟩ rfl
  | readFails =>
    simp only [Link.step] at hstep
    split at hstep <;> cases hstep
    exact h.fail rfl rfl (by simp) rfl rfl List.prefix_rfl h.behind
      ⟨[], List.nil_suffix, rfl, rfl⟩ rfl
  | read => exact h.read hs hstep

/-! ## Any run -/

/-- The state a data channel opens in. -/
def Fresh (l : Link) : Prop :=
  l = {}

theorem sends_receives_of_reachable (hx : Reachable Fresh Link.step l) : l.Sends ∧ l.Receives := by
  obtain ⟨history, hx⟩ := hx
  refine hx.invariant (I := fun l => l.Sends ∧ l.Receives) ?_ ?_
  · rintro s rfl
    refine ⟨⟨by simp, rfl, by simp, .inl rfl, fun _ _ => rfl, by simp, by simp⟩, ?_⟩
    exact ⟨Nat.le_refl _, ⟨[], List.nil_suffix, rfl, rfl⟩, fun _ => ⟨rfl, rfl⟩, List.nil_prefix,
      by simp, by simp, by simp⟩
  · rintro s e s' ⟨hsends, hreceives⟩ hstep
    exact ⟨hsends.step hstep, hreceives.step hsends hstep⟩

/-- Until `next` first fails, it returns the messages whose send came back with `Ok`, in order and none
of them changed, and all of them once everything on the wire has been read. No message that it ever
returns is longer than the limit or has fragments of two calls in it. The fragments are never found
malformed, and the first failure is the complaint about the length only if a message is that long. -/
theorem messages_round_trip (hx : Reachable Fresh Link.step l) :
    Returned.messages l.returned <+: l.sent ∧
    ((∀ r ∈ l.returned, r.isMessage) → l.cursor = l.wire.length →
      Returned.messages l.returned = l.sent) ∧
    (∀ msg calls limit, .message msg calls limit ∈ l.returned →
      msg.length ≤ limit ∧ ∃ call, call < l.begun.length ∧ calls ≠ [] ∧ ∀ c ∈ calls, c = call) ∧
    (∀ r ∈ l.returned, r.isViolation = false) ∧
    (∀ before limit after, l.returned = before ++ .tooBig limit :: after →
      (∀ r ∈ before, r.isMessage) → ∃ data ∈ l.begun, limit < data.length) := by
  obtain ⟨hsends, hreceives⟩ := sends_receives_of_reachable hx
  refine ⟨?_, ?_, hreceives.single, hreceives.polite, hreceives.tooBig⟩
  · have hseen : l.seen ++ l.wire.drop l.cursor = l.wire := List.take_append_drop ..
    have hblocks := (complete_append Fragment.isEnd l.seen (l.wire.drop l.cursor)).map Fragment.join
    rw [hseen, hsends.sent] at hblocks
    exact hreceives.messages.trans hblocks
  · intro hclean hcursor
    have hseen : l.seen = l.wire := List.take_of_length_le (Nat.le_of_eq hcursor.symm)
    rw [(hreceives.clean hclean).1, hseen, hsends.sent]

/-- A send that fails with nothing written, a message during which a `next` is dropped, an empty one. -/
def afterTwo : Link where
  wire := [⟨[FRAG_END, 3], 1⟩, ⟨[FRAG_END], 2⟩]
  begun := [[1, 2], [3], []]
  sent := [[3], []]
  cursor := 2
  returned := [.message [3] [1] MAX_RECV_MESSAGE, .message [] [2] MAX_RECV_MESSAGE]

theorem messages_round_trip_two : Reachable Fresh Link.step afterTwo ∧
    Returned.messages afterTwo.returned = [[3], []] := by
  have hrun : Lib.runs Link.step {} [.sendBytes [1, 2], .writeFails, .sendBytes [3], .next, .cancel,
      .write, .next, .read, .sendBytes [], .write, .next, .read] = some afterTwo := by decide
  obtain ⟨history, hx⟩ := (Exec.start (show Fresh {} from rfl)).append hrun
  exact ⟨⟨history, hx⟩, (messages_round_trip ⟨history, hx⟩).2.1 (by decide) (by decide)⟩

end Link

end FontisRemote.WebRtc
