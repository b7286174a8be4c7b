import Mathlib.Data.List.ReduceOption
import Mathlib.Logic.Function.Basic
import FontisRemote.Transport.Encrypt

/-!
# Integrity of the split channel

The two ends of a connection under key exchange version 1 with an adversary between them, who hands
each call of `next` whatever it likes. Of the cipher only this is used: a frame opens under a key and
a nonce if it was sealed under them (`Link.Ideal`).

Every frame of more than one byte moves the receiving counter on, whether it opens or not, so the
`p`-th such frame can only be the `p`-th message of the other end (`Link.Tracks`). Hence the messages
that come out of such frames are those of the other end in their order, without gaps up to the first
frame that does not open.
-/

namespace FontisRemote.Transport

open FontisRemote.Lib

/-! ## Lists with holes -/

section Holes

variable {α : Type*}

/-- What stands at its own place makes a sublist. -/
theorem reduceOption_sublist {os : List (Option α)} {ms : List α}
    (h : ∀ (p : Nat) m, os[p]? = some (some m) → ms[p]? = some m) : os.reduceOption.Sublist ms := by
  induction os generalizing ms with
  | nil => exact List.nil_sublist ms
  | cons o os ih =>
    have htail : os.reduceOption.Sublist ms.tail := by
      refine ih fun p m hp => ?_
      have hms := h (p + 1) m (by simpa using hp)
      rwa [List.getElem?_tail]
    cases o with
    | none =>
      rw [List.reduceOption_cons_of_none]
      exact htail.trans (List.tail_sublist ms)
    | some a =>
      have hhead := h 0 a rfl
      cases ms with
      | nil => cases hhead
      | cons b ms =>
        obtain rfl : b = a := by simpa using hhead
        rw [List.reduceOption_cons_of_some]
        exact htail.cons_cons b

/-- Up to the first hole it makes a prefix; only the places before it matter. -/
theorem takeWhile_reduceOption_prefix {os : List (Option α)} {ms : List α}
    (h : ∀ (p : Nat) m, (∀ q ≤ p, ∃ m', os[q]? = some (some m')) → os[p]? = some (some m) →
      ms[p]? = some m) :
    (os.takeWhile Option.isSome).reduceOption <+: ms := by
  induction os generalizing ms with
  | nil => exact List.nil_prefix
  | cons o os ih =>
    cases o with
    | none => exact List.nil_prefix
    | some a =>
      have hhead := h 0 a (fun q hq => ⟨a, by rw [Nat.le_zero.1 hq]; rfl⟩) rfl
      cases ms with
      | nil => cases hhead
      | cons b ms =>
        obtain rfl : b = a := by simpa using hhead
        have htail : (os.takeWhile Option.isSome).reduceOption <+: ms := by
          refine ih fun p m hbefore hp => ?_
          have hms := h (p + 1) m (fun q hq => ?_) (by simpa using hp)
          · simpa using hms
          · cases q with
            | zero => exact ⟨b, rfl⟩
            | succ q => simpa using hbefore q (Nat.le_of_succ_le_succ hq)
        rw [List.takeWhile_cons_of_pos rfl, List.reduceOption_cons_of_some]
        exact List.cons_prefix_cons.2 ⟨rfl, htail⟩

end Holes

/-! ## The two ends -/

inductive Side
  | initiator
  | responder
deriving DecidableEq, Repr

def Side.peer : Side → Side
  | .initiator => .responder
  | .responder => .initiator

/-- One end: its cipher, the messages it has passed to `enc`, and the results of its calls of `next`,
each with the frame that was handed to `dec`. Both lists are oldest first. -/
structure Endpoint where
  encrypt : Encrypt
  passed : List Bytes
  results : List (Option Bytes × Except Error Bytes)

namespace Endpoint

def enc (so : Sodium) (e : Endpoint) (data : Bytes) : Endpoint :=
  { e with
    encrypt := (e.encrypt.enc so data).2
    passed := e.passed ++ [data] }

def next (so : Sodium) (e : Endpoint) (a : Arrival) : Endpoint :=
  let (res, encrypt) := a.next so (some e.encrypt)
  { e with
    encrypt := encrypt.getD e.encrypt
    results := e.results ++ (res.map fun r => (a.frame, r)).toList }

/-- The messages that `next` delivered. -/
def delivered (e : Endpoint) : List Bytes := e.results.filterMap fun r => r.2.toOption

/-- The frames of more than one byte, each with the message it gave or none. -/
def opened (e : Endpoint) : List (Option Bytes) :=
  e.results.filterMap fun r => r.1.bind fun c => if 1 < c.length then some r.2.toOption else none

/-- The messages delivered from frames of more than one byte. -/
def authenticated (e : Endpoint) : List Bytes := e.opened.reduceOption

/-- Those before the first frame that did not open. -/
def authenticatedUntilError (e : Endpoint) : List Bytes :=
  (e.opened.takeWhile Option.isSome).reduceOption

end Endpoint

/-- A call of `secretbox::seal`. -/
structure Sealed where
  key : Key
  nonce : Nonce
  data : Bytes
  frame : Bytes
deriving DecidableEq

structure Link where
  ends : Side → Endpoint
  sealed : List Sealed

inductive Event
  | enc (x : Side) (data : Bytes)
  | next (x : Side) (a : Arrival)

namespace Link

/-- Both ends with the key and the transcript of one exchange. -/
def Init (so : Sodium) (key : Key) (t : KxTranscript) (s : Link) : Prop :=
  s.sealed = [] ∧ ∀ x, (s.ends x).passed = [] ∧ (s.ends x).results = [] ∧
    Encrypt.newSplit so key (x = .initiator) t = .ok (s.ends x).encrypt

def step (so : Sodium) (s : Link) : Event → Option Link
  | .enc x data =>
    let (frame, encrypt) := (s.ends x).encrypt.enc so data
    some
      { ends := Function.update s.ends x ((s.ends x).enc so data)
        sealed := ⟨encrypt.key, getNonce encrypt.sent, data, frame⟩ :: s.sealed }
  | .next x a => some { s with ends := Function.update s.ends x ((s.ends x).next so a) }

/-- The cipher is ideal at this step: a frame of the adversary opens only if just this frame was sealed
under the key and the nonce it is opened with. -/
def Ideal (so : Sodium) (s : Link) : Event → Prop
  | .enc _ _ => True
  | .next x a => ∀ c m, a.frame = some c → 1 < c.length →
      let e := (s.ends x).encrypt
      let key := e.receivingKey.getD e.key
      so.secretboxOpen c (getNonce (e.received + 1)) key = some m →
        ⟨key, getNonce (e.received + 1), m, c⟩ ∈ s.sealed

end Link

/-! ## One call -/

namespace Endpoint

variable {so : Sodium} {e : Endpoint}

@[simp] theorem opened_enc (data : Bytes) : (e.enc so data).opened = e.opened := rfl

/-- A call that gets no frame delivers nothing. -/
theorem next_of_no_frame (so : Sodium) (e : Endpoint) {a : Arrival} (h : a.frame = none) :
    (e.next so a).encrypt = e.encrypt ∧ (e.next so a).opened = e.opened ∧
      ∀ r ∈ (e.next so a).results, r ∈ e.results ∨ ∀ m, r.2 ≠ .ok m := by
  obtain ⟨hkeep, hres⟩ := Arrival.next_of_no_frame so e.encrypt h
  refine ⟨by simp [next, hkeep], ?_, fun r hr => ?_⟩
  · simp only [opened, next, List.filterMap_append, h]
    cases (a.next so (some e.encrypt)).1 <;> simp
  · have hr : r ∈ e.results ++ ((a.next so (some e.encrypt)).1.map fun r => (a.frame, r)).toList := hr
    rcases List.mem_append.1 hr with hr | hr
    · exact .inl hr
    · refine .inr fun m hm => ?_
      obtain ⟨r', hr', rfl⟩ : ∃ r', (a.next so (some e.encrypt)).1 = some r' ∧ (a.frame, r') = r := by
        simpa only [Option.mem_toList, Option.map_eq_some_iff] using hr
      exact hres m (by rw [hr', ← hm])

theorem next_of_frame {a : Arrival} {c : Bytes} (h : a.frame = some c) :
    e.next so a =
      { e with
        encrypt := (e.encrypt.dec so c).2
        results := e.results ++ [(some c, (e.encrypt.dec so c).1)] } := by
  simp [next, Arrival.next_of_frame so e.encrypt h, h]

theorem opened_next_of_short {a : Arrival} {c : Bytes} (h : a.frame = some c) (hc : c.length ≤ 1) :
    (e.next so a).opened = e.opened := by
  simp [opened, next_of_frame h, Nat.not_lt.2 hc]

theorem opened_next_of_long {a : Arrival} {c : Bytes} (h : a.frame = some c) (hc : 1 < c.length) :
    (e.next so a).opened = e.opened ++ [(e.encrypt.dec so c).1.toOption] := by
  simp [opened, next_of_frame h, hc]

end Endpoint

/-! ## Counters and positions -/

namespace Link

/-- The counters of each end are the lengths of its two lists; what was sealed under an end's key and
with a counter's nonce is its message of that number, up to the width of the counter; and so is what
opened at the other end. -/
structure Tracks (k : Side → Key) (s : Link) : Prop where
  encrypt : ∀ x, (s.ends x).encrypt =
    ⟨k x, .ofNat (s.ends x).passed.length, .ofNat (s.ends x).opened.length, some (k x.peer)⟩
  sealed : ∀ b ∈ s.sealed, ∃ x, b.key = k x ∧ ∃ i : Nat, (s.ends x).passed[i]? = some b.data ∧
    b.nonce = getNonce (.ofNat (i + 1))
  opened : ∀ x (p : Nat) m, (s.ends x).opened[p]? = some (some m) →
    ∃ i : Nat, (s.ends x.peer).passed[i]? = some m ∧ UInt64.ofNat (i + 1) = UInt64.ofNat (p + 1)
  short : ∀ x, ∀ r ∈ (s.ends x).results, ∀ m, r.2 = .ok m → ∃ c, r.1 = some c ∧ (c.length ≤ 1 → m = c)

variable {so : Sodium} {k : Side → Key} {s s' : Link}

theorem Tracks.step_enc (h : s.Tracks k) {x : Side} {data : Bytes} (hs : s.step so (.enc x data) = some s') :
    s'.Tracks k := by
  cases hs
  have hpassed : ∀ y (i : Nat) m, (s.ends y).passed[i]? = some m →
      (Function.update s.ends x ((s.ends x).enc so data) y).passed[i]? = some m := by
    intro y i m hm
    by_cases hy : y = x
    · subst hy
      rw [Function.update_self]
      exact List.getElem?_append_left (List.getElem?_eq_some_iff.1 hm).1 ▸ hm
    · rwa [Function.update_of_ne hy]
  refine ⟨fun y => ?_, fun b hb => ?_, fun y p m hp => ?_, fun y r hr => ?_⟩
  · by_cases hy : y = x
    · subst hy
      simp [Endpoint.enc, Encrypt.enc, h.encrypt y, Endpoint.opened, UInt64.ofNat_add]
    · simp only [Function.update_of_ne hy]
      exact h.encrypt y
  · rcases List.mem_cons.1 hb with rfl | hb
    · refine ⟨x, by simp [h.encrypt x], (s.ends x).passed.length, ?_, ?_⟩
      · simp [Endpoint.enc]
      · simp [h.encrypt x, UInt64.ofNat_add]
    · obtain ⟨y, hy, i, hi, hn⟩ := h.sealed b hb
      exact ⟨y, hy, i, hpassed y i _ hi, hn⟩
  · have hp : (s.ends y).opened[p]? = some (some m) := by
      by_cases hy : y = x
      · subst hy
        simpa using hp
      · simpa only [Function.update_of_ne hy] using hp
    obtain ⟨i, hi, hip⟩ := h.opened y p m hp
    exact ⟨i, hpassed _ i m hi, hip⟩
  · by_cases hy : y = x
    · subst hy
      simp only [Function.update_self] at hr
      exact h.short y r hr
    · simp only [Function.update_of_ne hy] at hr
      exact h.short y r hr

/-- A frame of more than one byte: it takes the next place in the list, and if it opens there, it is
the message that was sealed with that place's counter. -/
theorem Tracks.open_long (h : s.Tracks k) (hne : ∀ x, k x ≠ k x.peer) {x : Side} {a : Arrival} {c : Bytes}
    (hc : a.frame = some c) (hlong : 1 < c.length) (hideal : s.Ideal so (.next x a)) {m : Bytes}
    (hm : ((s.ends x).encrypt.dec so c).1 = .ok m) :
    ∃ i : Nat, (s.ends x.peer).passed[i]? = some m ∧
      UInt64.ofNat (i + 1) = UInt64.ofNat ((s.ends x).opened.length + 1) := by
  have hopen := (Encrypt.dec_long_ok_iff so _ hlong).1 hm
  have hsealed := hideal c m hc hlong
  obtain ⟨y, hy, i, hi, hn⟩ := h.sealed _ (hsealed hopen)
  simp only [h.encrypt x, Option.getD_some] at hy hn
  obtain rfl : y = x.peer := by
    by_contra hyx
    obtain rfl : y = x := by
      cases x <;> cases y <;> first | rfl | exact absurd rfl hyx
    exact hne y hy.symm
  refine ⟨i, hi, ?_⟩
  rw [UInt64.ofNat_add (s.ends x).opened.length]
  exact (getNonce_inj hn).symm

theorem toOption_eq_some {ε : Type*} {r : Except ε Bytes} {m : Bytes} (h : r.toOption = some m) :
    r = .ok m := by
  cases r with
  | error => cases h
  | ok m' =>
    cases h
    rfl

theorem Tracks.step_next (h : s.Tracks k) (hne : ∀ x, k x ≠ k x.peer) {x : Side} {a : Arrival}
    (hideal : s.Ideal so (.next x a)) (hs : s.step so (.next x a) = some s') : s'.Tracks k := by
  cases hs
  have hpassed : ∀ y, (Function.update s.ends x ((s.ends x).next so a) y).passed = (s.ends y).passed := by
    intro y
    by_cases hy : y = x
    · subst hy
      rw [Function.update_self]
      rfl
    · rw [Function.update_of_ne hy]
  -- the end that made the call; the other has not changed
  have hcounters : ((s.ends x).next so a).encrypt = ⟨k x, .ofNat (s.ends x).passed.length,
      .ofNat ((s.ends x).next so a).opened.length, some (k x.peer)⟩ := by
    cases hc : a.frame with
    | none =>
      obtain ⟨hkeep, hopened, -⟩ := Endpoint.next_of_no_frame so (s.ends x) hc
      rw [hkeep, hopened]
      exact h.encrypt x
    | some c =>
      rcases Nat.lt_or_ge 1 c.length with hlong | hshort
      · rw [Endpoint.opened_next_of_long hc hlong, Endpoint.next_of_frame hc]
        simp [Encrypt.dec_long_snd so _ hlong, h.encrypt x, UInt64.ofNat_add]
      · rw [Endpoint.opened_next_of_short hc hshort, Endpoint.next_of_frame hc,
          Encrypt.dec_short so _ hshort]
        exact h.encrypt x
  have hplaces : ∀ (p : Nat) m, ((s.ends x).next so a).opened[p]? = some (some m) →
      ∃ i : Nat, (s.ends x.peer).passed[i]? = some m ∧ UInt64.ofNat (i + 1) = UInt64.ofNat (p + 1) := by
    intro p m hp
    cases hc : a.frame with
    | none =>
      rw [(Endpoint.next_of_no_frame so (s.ends x) hc).2.1] at hp
      exact h.opened x p m hp
    | some c =>
      rcases Nat.lt_or_ge 1 c.length with hlong | hshort
      · rw [Endpoint.opened_next_of_long hc hlong, List.getElem?_append] at hp
        split_ifs at hp with hlt
        · exact h.opened x p m hp
        · obtain ⟨hzero, hm⟩ := List.getElem?_eq_some_iff.1 hp
          obtain rfl : p = (s.ends x).opened.length := by
            simp only [List.length_singleton] at hzero
            omega
          exact h.open_long hne hc hlong hideal (toOption_eq_some (by simpa using hm))
      · rw [Endpoint.opened_next_of_short hc hshort] at hp
        exact h.opened x p m hp
  have hshorts : ∀ r ∈ ((s.ends x).next so a).results, ∀ m, r.2 = .ok m →
      ∃ c, r.1 = some c ∧ (c.length ≤ 1 → m = c) := by
    intro r hr m hm
    cases hc : a.frame with
    | none =>
      rcases (Endpoint.next_of_no_frame so (s.ends x) hc).2.2 r hr with hr | hr
      · exact h.short x r hr m hm
      · exact absurd hm (hr m)
    | some c =>
      rw [Endpoint.next_of_frame hc] at hr
      rcases List.mem_append.1 hr with hr | hr
      · exact h.short x r hr m hm
      · obtain rfl := List.mem_singleton.1 hr
        refine ⟨c, rfl, fun hshort => ?_⟩
        simp only [Encrypt.dec_short so _ hshort, Except.ok.injEq] at hm
        exact hm.symm
  refine ⟨fun y => ?_, fun b hb => ?_, fun y p m hp => ?_, fun y r hr => ?_⟩
  · rw [hpassed]
    by_cases hy : y = x
    · subst hy
      simpa only [Function.update_self] using hcounters
    · simpa only [Function.update_of_ne hy] using h.encrypt y
  · obtain ⟨y, hy, i, hi, hn⟩ := h.sealed b hb
    exact ⟨y, hy, i, by rwa [hpassed], hn⟩
  · rw [hpassed]
    by_cases hy : y = x
    · subst hy
      exact hplaces p m (by simpa only [Function.update_self] using hp)
    · exact h.opened y p m (by simpa only [Function.update_of_ne hy] using hp)
  · by_cases hy : y = x
    · subst hy
      exact hshorts r (by simpa only [Function.update_self] using hr)
    · exact h.short y r (by simpa only [Function.update_of_ne hy] using hr)

theorem Tracks.step (h : s.Tracks k) (hne : ∀ x, k x ≠ k x.peer) {ev : Event} (hideal : s.Ideal so ev)
    (hs : s.step so ev = some s') : s'.Tracks k := by
  cases ev with
  | enc x data => exact h.step_enc hs
  | next x a => exact h.step_next hne hideal hs

/-- The key each end sends under. -/
theorem newSplit_ok {key : Key} {t : KxTranscript} {b : Bool} {e : Encrypt}
    (h : Encrypt.newSplit so key b t = .ok e) :
    ∃ ki kr, Encrypt.deriveSubkey so key KX_SPLIT_INITIATOR t = .ok ki ∧
      Encrypt.deriveSubkey so key KX_SPLIT_RESPONDER t = .ok kr ∧
      e = if b then ⟨ki, 0, 0, some kr⟩ else ⟨kr, 0, 0, some ki⟩ := by
  unfold Encrypt.newSplit at h
  cases hi : Encrypt.deriveSubkey so key KX_SPLIT_INITIATOR t with
  | error => rw [hi] at h; cases h
  | ok ki =>
    cases hr : Encrypt.deriveSubkey so key KX_SPLIT_RESPONDER t with
    | error => rw [hi, hr] at h; cases h
    | ok kr =>
      rw [hi, hr] at h
      cases h
      exact ⟨ki, kr, rfl, rfl, rfl⟩

theorem Tracks.init {key : Key} {t : KxTranscript} (h : s.Init so key t)
    (hkeys : Encrypt.deriveSubkey so key KX_SPLIT_INITIATOR t ≠
      Encrypt.deriveSubkey so key KX_SPLIT_RESPONDER t) :
    ∃ k : Side → Key, (∀ x, k x ≠ k x.peer) ∧ s.Tracks k := by
  obtain ⟨hsealed, hends⟩ := h
  obtain ⟨ki, kr, hi, hr, -⟩ := newSplit_ok (hends .initiator).2.2
  have hne : ki ≠ kr := fun he => hkeys (by rw [hi, hr, he])
  let k : Side → Key := fun x => if x = .initiator then ki else kr
  refine ⟨k, fun x => ?_, fun x => ?_, fun b hb => ?_, fun x p m hp => ?_, fun x r hr => ?_⟩
  · cases x with
    | initiator => exact hne
    | responder => exact hne.symm
  · obtain ⟨hpassed, hresults, hsplit⟩ := hends x
    obtain ⟨ki', kr', hi', hr', he⟩ := newSplit_ok hsplit
    obtain rfl : ki = ki' := by rw [hi] at hi'; cases hi'; rfl
    obtain rfl : kr = kr' := by rw [hr] at hr'; cases hr'; rfl
    rw [he, hpassed, Endpoint.opened, hresults]
    cases x <;> rfl
  · rw [hsealed] at hb
    cases hb
  · rw [Endpoint.opened, (hends x).2.1] at hp
    cases hp
  · rw [(hends x).2.1] at hr
    cases hr

/-- Below the width of the counters the place of an opened frame is the number of the message. -/
theorem Tracks.at_place (h : s.Tracks k) {x : Side} {p : Nat} {m : Bytes}
    (hp : (s.ends x).opened[p]? = some (some m)) (hlt : p < 2 ^ 64)
    (hsent : (s.ends x.peer).passed.length < 2 ^ 64) : (s.ends x.peer).passed[p]? = some m := by
  obtain ⟨i, hi, hip⟩ := h.opened x p m hp
  have hlen : i < (s.ends x.peer).passed.length := (List.getElem?_eq_some_iff.1 hi).1
  have hmod := congrArg UInt64.toNat hip
  simp only [UInt64.toNat_ofNat'] at hmod
  obtain rfl : i = p := by omega
  exact hi

end Link

/-- In every run of two ends that split one key, with an ideal cipher and any adversary, while the
other end has sent fewer than `2 ^ 64` messages: what comes out of frames of more than one byte before
one of them fails to open is a prefix of what the other end passed to `enc`; all that ever comes out
of them is a part of it in its order (up to `2 ^ 64` frames); and a message is delivered otherwise only
as a frame of at most one byte, unchanged. -/
theorem delivered_in_order {so : Sodium} {key : Key} {t : KxTranscript} {h : List (Link × Event)} {s : Link}
    (hx : Exec (Link.Init so key t) (Link.step so) h s)
    (hkeys : Encrypt.deriveSubkey so key KX_SPLIT_INITIATOR t ≠
      Encrypt.deriveSubkey so key KX_SPLIT_RESPONDER t)
    (hideal : ∀ p ∈ h, p.1.Ideal so p.2) (x : Side)
    (hsent : (s.ends x.peer).passed.length < 2 ^ 64) :
    (s.ends x).authenticatedUntilError <+: (s.ends x.peer).passed ∧
      ((s.ends x).opened.length < 2 ^ 64 →
        (s.ends x).authenticated.Sublist (s.ends x.peer).passed) ∧
      ∀ r ∈ (s.ends x).results, ∀ m, r.2 = .ok m → ∃ c, r.1 = some c ∧ (c.length ≤ 1 → m = c) := by
  obtain ⟨k, hne, htracks⟩ : ∃ k : Side → Key, (∀ x, k x ≠ k x.peer) ∧ s.Tracks k :=
    hx.invariant_of (I := fun s => ∃ k : Side → Key, (∀ x, k x ≠ k x.peer) ∧ s.Tracks k)
      (G := fun s ev => s.Ideal so ev) (fun s hs => Link.Tracks.init hs hkeys)
      (fun s ev s' ⟨k, hne, ht⟩ hi hstep => ⟨k, hne, ht.step hne hi hstep⟩) hideal
  refine ⟨?_, fun hlt => ?_, htracks.short x⟩
  · refine takeWhile_reduceOption_prefix fun p m hbefore hp => ?_
    refine htracks.at_place hp ?_ hsent
    -- no message has the number at which the counter comes round
    by_contra hge
    obtain ⟨m', hm'⟩ := hbefore (2 ^ 64 - 1) (by omega)
    obtain ⟨i, hi, hip⟩ := htracks.opened x _ m' hm'
    have hlen : i < (s.ends x.peer).passed.length := (List.getElem?_eq_some_iff.1 hi).1
    have hmod := congrArg UInt64.toNat hip
    simp only [UInt64.toNat_ofNat'] at hmod
    omega
  · refine reduceOption_sublist fun p m hp => htracks.at_place hp ?_ hsent
    exact (List.getElem?_eq_some_iff.1 hp).1.trans hlt

/-! ## When the counters come round -/

section Wrap

variable {so : Sodium} {key : Key} {t : KxTranscript}

/-- A run of `n` messages, each delivered as it is sent. -/
structure Link.Regular (so : Sodium) (key : Key) (t : KxTranscript) (ki kr : Key) (m : Bytes) (n : Nat)
    (h : List (Link × Event)) (s : Link) : Prop where
  exec : Exec (Link.Init so key t) (Link.step so) h s
  ideal : ∀ p ∈ h, p.1.Ideal so p.2
  initiator : (s.ends .initiator).encrypt = ⟨ki, .ofNat n, 0, some kr⟩
  responder : (s.ends .responder).encrypt = ⟨kr, 0, .ofNat n, some ki⟩
  passed : (s.ends .initiator).passed = List.replicate n m
  delivered : (s.ends .responder).delivered = List.replicate n m
  sealed : ∀ i < n, ⟨ki, getNonce (.ofNat (i + 1)), m, so.secretboxSeal m (getNonce (.ofNat (i + 1))) ki⟩ ∈
    s.sealed

/-- A frame that was sealed with the nonce the responder is at is delivered. -/
theorem Link.Regular.arrives {ki kr : Key} {m : Bytes} {n : Nat} {h : List (Link × Event)} {s : Link}
    (hopen : ∀ m nonce k, so.secretboxOpen (so.secretboxSeal m nonce k) nonce k = some m)
    (hlong : ∀ m nonce k, 1 < (so.secretboxSeal m nonce k).length)
    (hexec : Exec (Link.Init so key t) (Link.step so) h s) (hideal : ∀ p ∈ h, p.1.Ideal so p.2)
    (hresponder : (s.ends .responder).encrypt = ⟨kr, 0, .ofNat n, some ki⟩)
    (hsealed : ⟨ki, getNonce (.ofNat (n + 1)), m, so.secretboxSeal m (getNonce (.ofNat (n + 1))) ki⟩ ∈
      s.sealed) :
    ∃ h' s', Exec (Link.Init so key t) (Link.step so) h' s' ∧ (∀ p ∈ h', p.1.Ideal so p.2) ∧
      s'.ends .initiator = s.ends .initiator ∧ s'.sealed = s.sealed ∧
      (s'.ends .responder).encrypt = ⟨kr, 0, .ofNat (n + 1), some ki⟩ ∧
      (s'.ends .responder).delivered = (s.ends .responder).delivered ++ [m] := by
  let c := so.secretboxSeal m (getNonce (.ofNat (n + 1))) ki
  have hc : (Arrival.tcp (some (.ok c))).frame = some c := rfl
  have hdec : ((s.ends .responder).encrypt.dec so c).1 = .ok m := by
    refine (Encrypt.dec_long_ok_iff so _ (hlong ..)).2 ?_
    simp only [hresponder, Option.getD_some, ← UInt64.ofNat_one, ← UInt64.ofNat_add]
    exact hopen ..
  let s' : Link :=
    { s with ends := Function.update s.ends .responder ((s.ends .responder).next so (.tcp (some (.ok c)))) }
  have hstep : s.step so (.next .responder (.tcp (some (.ok c)))) = some s' := rfl
  refine ⟨_, s', hexec.snoc hstep, ?_, ?_, rfl, ?_, ?_⟩
  · intro p hp
    rcases List.mem_cons.1 hp with rfl | hp
    · intro c' m' hc' _
      cases hc'
      simp only [hresponder, Option.getD_some, ← UInt64.ofNat_one, ← UInt64.ofNat_add]
      intro hm'
      obtain rfl : m = m' := Option.some.inj ((hopen ..).symm.trans hm')
      exact hsealed
    · exact hideal p hp
  · simp [s']
  · have hcount := Encrypt.dec_long_snd so (s.ends .responder).encrypt (show 1 < c.length from hlong ..)
    simp only [s', Function.update_self, Endpoint.next_of_frame hc]
    rw [hcount, hresponder, UInt64.ofNat_add]
    rfl
  · simp [s', Endpoint.delivered, Endpoint.next_of_frame hc, hdec, Except.toOption]

theorem Link.regular_run {ki kr : Key} (hi : Encrypt.deriveSubkey so key KX_SPLIT_INITIATOR t = .ok ki)
    (hr : Encrypt.deriveSubkey so key KX_SPLIT_RESPONDER t = .ok kr)
    (hopen : ∀ m nonce k, so.secretboxOpen (so.secretboxSeal m nonce k) nonce k = some m)
    (hlong : ∀ m nonce k, 1 < (so.secretboxSeal m nonce k).length) (m : Bytes) (n : Nat) :
    ∃ h s, Link.Regular so key t ki kr m n h s := by
  induction n with
  | zero =>
    let s : Link :=
      { ends := fun x => ⟨if x = .initiator then ⟨ki, 0, 0, some kr⟩ else ⟨kr, 0, 0, some ki⟩, [], []⟩
        sealed := [] }
    have hinit : Link.Init so key t s := by
      refine ⟨rfl, fun x => ⟨rfl, rfl, ?_⟩⟩
      unfold Encrypt.newSplit
      rw [hi, hr]
      cases x <;> rfl
    exact ⟨[], s, .start hinit, nofun, rfl, rfl, rfl, rfl, nofun⟩
  | succ n ih =>
    obtain ⟨h, s, hreg⟩ := ih
    let s₁ : Link :=
      { ends := Function.update s.ends .initiator ((s.ends .initiator).enc so m)
        sealed := ⟨ki, getNonce (.ofNat (n + 1)), m, so.secretboxSeal m (getNonce (.ofNat (n + 1))) ki⟩ ::
          s.sealed }
    have hstep : s.step so (.enc .initiator m) = some s₁ := by
      simp only [Link.step, Encrypt.enc, hreg.initiator, ← UInt64.ofNat_one, ← UInt64.ofNat_add]
      rfl
    have hideal : ∀ p ∈ (s, Event.enc .initiator m) :: h, p.1.Ideal so p.2 := by
      intro p hp
      rcases List.mem_cons.1 hp with rfl | hp
      · trivial
      · exact hreg.ideal p hp
    have hkeep : s₁.ends .responder = s.ends .responder := by simp [s₁]
    obtain ⟨h', s', hx, hideal', hinit, hsealed, hresp, hdel⟩ :=
      Link.Regular.arrives hopen hlong (hreg.exec.snoc hstep) hideal
        (by rw [hkeep]; exact hreg.responder) (List.mem_cons_self ..)
    refine ⟨h', s', hx, hideal', ?_, hresp, ?_, ?_, fun i hi => ?_⟩
    · simp only [hinit, s₁, Function.update_self, Endpoint.enc, Encrypt.enc, hreg.initiator, UInt64.ofNat_add]
      rfl
    · simp only [hinit, s₁, Function.update_self, Endpoint.enc, hreg.passed, List.replicate_succ']
    · rw [hdel, hkeep, hreg.delivered, List.replicate_succ']
    · rw [hsealed]
      rcases Nat.lt_succ_iff_lt_or_eq.1 hi with hlt | rfl
      · exact List.mem_cons_of_mem _ (hreg.sealed i hlt)
      · exact List.mem_cons_self ..

/-- After `2 ^ 64` messages the first frame is taken once more. -/
theorem replayed_when_counters_wrap {ki kr : Key}
    (hi : Encrypt.deriveSubkey so key KX_SPLIT_INITIATOR t = .ok ki)
    (hr : Encrypt.deriveSubkey so key KX_SPLIT_RESPONDER t = .ok kr)
    (hopen : ∀ m nonce k, so.secretboxOpen (so.secretboxSeal m nonce k) nonce k = some m)
    (hlong : ∀ m nonce k, 1 < (so.secretboxSeal m nonce k).length) (m : Bytes) :
    ∃ h s, Exec (Link.Init so key t) (Link.step so) h s ∧ (∀ p ∈ h, p.1.Ideal so p.2) ∧
      (s.ends .initiator).passed.length = 2 ^ 64 ∧ (s.ends .responder).delivered.length = 2 ^ 64 + 1 := by
  obtain ⟨h, s, hreg⟩ := Link.regular_run hi hr hopen hlong m (2 ^ 64)
  have hwrap : UInt64.ofNat (2 ^ 64 + 1) = UInt64.ofNat (0 + 1) := by decide
  have hsealed : ⟨ki, getNonce (.ofNat (2 ^ 64 + 1)), m,
      so.secretboxSeal m (getNonce (.ofNat (2 ^ 64 + 1))) ki⟩ ∈ s.sealed := by
    rw [hwrap]
    exact hreg.sealed 0 (Nat.two_pow_pos 64)
  obtain ⟨h', s', hx, hideal, hinit, -, -, hdel⟩ :=
    Link.Regular.arrives hopen hlong hreg.exec hreg.ideal hreg.responder hsealed
  refine ⟨h', s', hx, hideal, ?_, ?_⟩
  · rw [hinit, hreg.passed, List.length_replicate]
  · rw [hdel, hreg.delivered, List.length_append, List.length_replicate, List.length_singleton]

end Wrap

/-! ## The keys of the wire vectors

The exchanged key and the transcript of the vectors in the transport's tests, with the subkeys given
there and the first two frames the initiator seals under its own. -/

namespace Wire

def key : Key := ⟨List.replicate 32 0x11, rfl⟩

def transcript : KxTranscript := ⟨List.replicate 32 0x22, List.replicate 32 0x33, 1, 1⟩

def initiatorKey : Key where
  bytes := [0xc1, 0x89, 0xec, 0x6e, 0x19, 0x35, 0xc0, 0x75, 0x1c, 0xfc, 0x85, 0xa0, 0xf0, 0x75, 0x40, 0x5c,
    0xae, 0x50, 0x7d, 0x79, 0x25, 0xbb, 0x19, 0x68, 0x7c, 0xaf, 0x56, 0xcb, 0xb5, 0x4e, 0x0e, 0xcf]
  length_eq := rfl

def responderKey : Key where
  bytes := [0x8a, 0x62, 0x64, 0x8e, 0x91, 0x95, 0xcb, 0x10, 0xea, 0x90, 0x0c, 0x0a, 0x24, 0xd2, 0xa1, 0x66,
    0xc1, 0xe9, 0x82, 0x34, 0x7a, 0x2d, 0xc6, 0x83, 0x3c, 0x3e, 0x75, 0x6b, 0xf5, 0x71, 0x5d, 0x36]
  length_eq := rfl

/-- The text `hello`, and its frame as the initiator's first. -/
def hello : Bytes := [0x68, 0x65, 0x6c, 0x6c, 0x6f]

def helloFrame : Bytes := [0x03, 0xc3, 0x48, 0xb2, 0x58, 0x98, 0x15, 0xbc, 0x93, 0x00, 0x71, 0x4a, 0xc6, 0x01,
  0x33, 0xbe, 0x0e, 0x17, 0xd5, 0xde, 0x21]

/-- The text `again`, and its frame as the initiator's second. -/
def again : Bytes := [0x61, 0x67, 0x61, 0x69, 0x6e]

def againFrame : Bytes := [0x8d, 0xda, 0xce, 0xf1, 0x76, 0x65, 0x4d, 0x3f, 0x89, 0x11, 0xef, 0x07, 0xc5, 0x72,
  0x0b, 0x3c, 0x53, 0x21, 0xc0, 0x39, 0xb1]

/-- The library on these values; it knows no others and refuses them. -/
def sodium : Sodium where
  secretboxSeal data nonce k :=
    if k = initiatorKey ∧ nonce = getNonce 1 ∧ data = hello then helloFrame
    else if k = initiatorKey ∧ nonce = getNonce 2 ∧ data = again then againFrame
    else []
  secretboxOpen frame nonce k :=
    if k = initiatorKey ∧ nonce = getNonce 1 ∧ frame = helloFrame then some hello
    else if k = initiatorKey ∧ nonce = getNonce 2 ∧ frame = againFrame then some again
    else none
  generichash k input :=
    if k = key ∧ input = Encrypt.subkeyInput KX_SPLIT_INITIATOR transcript then some initiatorKey
    else if k = key ∧ input = Encrypt.subkeyInput KX_SPLIT_RESPONDER transcript then some responderKey
    else none

def start : Link where
  ends
    | .initiator => ⟨⟨initiatorKey, 0, 0, some responderKey⟩, [], []⟩
    | .responder => ⟨⟨responderKey, 0, 0, some initiatorKey⟩, [], []⟩
  sealed := []

theorem start_init : Link.Init sodium key transcript start := by
  refine ⟨rfl, fun x => ?_⟩
  cases x <;> exact ⟨rfl, rfl, by decide +kernel⟩

theorem keys_differ : Encrypt.deriveSubkey sodium key KX_SPLIT_INITIATOR transcript ≠
    Encrypt.deriveSubkey sodium key KX_SPLIT_RESPONDER transcript := by
  decide +kernel

/-- The state after some events. -/
def after (es : List Event) : Link := (runs (Link.step sodium) start es).getD start

/-- The wire hands a frame to the responder. -/
def arrives (c : Bytes) : Event := .next .responder (.tcp (some (.ok c)))

/-- The cipher is ideal at a frame that does not open, or was sealed for its place. -/
theorem ideal_arrives {s : Link} {c : Bytes}
    (h : ∀ m, sodium.secretboxOpen c (getNonce ((s.ends .responder).encrypt.received + 1))
        ((s.ends .responder).encrypt.receivingKey.getD (s.ends .responder).encrypt.key) = some m →
      ⟨(s.ends .responder).encrypt.receivingKey.getD (s.ends .responder).encrypt.key,
        getNonce ((s.ends .responder).encrypt.received + 1), m, c⟩ ∈ s.sealed) :
    s.Ideal sodium (arrives c) := by
  intro c' m hc _
  cases hc
  exact h m

end Wire

open Wire in
/-- One message that arrives. -/
theorem delivered_in_order_hello :
    ((after [.enc .initiator hello, arrives helloFrame]).ends .responder).authenticatedUntilError = [hello] ∧
      ((after [.enc .initiator hello, arrives helloFrame]).ends .responder).authenticatedUntilError <+:
        ((after [.enc .initiator hello, arrives helloFrame]).ends .initiator).passed := by
  refine ⟨by decide +kernel, ?_⟩
  have hx : Exec (Link.Init sodium key transcript) (Link.step sodium)
      [(after [.enc .initiator hello], arrives helloFrame), (start, .enc .initiator hello)]
      (after [.enc .initiator hello, arrives helloFrame]) :=
    .snoc (.snoc (.start start_init) rfl) rfl
  refine (delivered_in_order hx keys_differ ?_ .responder (by decide +kernel)).1
  intro p hp
  simp only [List.mem_cons, List.not_mem_nil, or_false] at hp
  rcases hp with rfl | rfl
  · refine ideal_arrives fun m hm => ?_
    obtain rfl : hello = m := by
      have hopen : sodium.secretboxOpen helloFrame (getNonce 1) initiatorKey = some hello := by
        decide +kernel
      exact Option.some.inj (hopen.symm.trans hm)
    decide +kernel
  · trivial

open Wire in
/-- What `next` delivers need not be a prefix: a byte that nobody sent is delivered as it is, and a
message is delivered after a frame in the place of the one before it did not open. -/
theorem delivered_not_prefix :
    (∃ h s, Exec (Link.Init sodium key transcript) (Link.step sodium) h s ∧
      (∀ p ∈ h, p.1.Ideal sodium p.2) ∧
      (s.ends .responder).delivered = [[7]] ∧
      ¬ (s.ends .responder).delivered <+: (s.ends .initiator).passed) ∧
    ∃ h s, Exec (Link.Init sodium key transcript) (Link.step sodium) h s ∧
      (∀ p ∈ h, p.1.Ideal sodium p.2) ∧
      (s.ends .responder).delivered = [again] ∧
      ¬ (s.ends .responder).delivered <+: (s.ends .initiator).passed := by
  constructor
  · refine ⟨[(start, arrives [7])], after [arrives [7]], .snoc (.start start_init) rfl, ?_,
      by decide +kernel, by decide +kernel⟩
    intro p hp
    obtain rfl := List.mem_singleton.1 hp
    exact ideal_arrives fun m hm => nomatch hm
  · refine ⟨[(after [.enc .initiator hello, .enc .initiator again, arrives [0, 0]], arrives againFrame),
      (after [.enc .initiator hello, .enc .initiator again], arrives [0, 0]),
      (after [.enc .initiator hello], .enc .initiator again), (start, .enc .initiator hello)],
      after [.enc .initiator hello, .enc .initiator again, arrives [0, 0], arrives againFrame],
      .snoc (.snoc (.snoc (.snoc (.start start_init) rfl) rfl) rfl) rfl, ?_,
      by decide +kernel, by decide +kernel⟩
    intro p hp
    simp only [List.mem_cons, List.not_mem_nil, or_false] at hp
    rcases hp with rfl | rfl | rfl | rfl
    · refine ideal_arrives fun m hm => ?_
      obtain rfl : again = m := by
        have hopen : sodium.secretboxOpen againFrame (getNonce 2) initiatorKey = some again := by
          decide +kernel
        exact Option.some.inj (hopen.symm.trans hm)
      decide +kernel
    · exact ideal_arrives fun m hm => nomatch hm
    · trivial
    · trivial

end FontisRemote.Transport
