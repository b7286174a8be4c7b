import FontisRemote.Privacy.Mode

/-!
# Who holds the privacy mode, and who ends it

The connections of `connection.rs` share the one privacy mode. Each runs by itself, so that between two operations
of one the others may act: a request that fails looks whether the mode is on and then turns it off under no id; a
connection whose permission goes, or which ends, looks whether the mode is its own first.

Displays are blank only for a connection that is there, is authorized and has the permission. No request of another
to turn the mode off ends it. A request of another to turn it on is refused, and then ends it.
-/

namespace FontisRemote.Privacy

open FontisRemote.Lib

/-- What a connection is about to do. -/
inductive Task
  | idle
  /-- Its request to turn the mode on has failed. -/
  | failed
  /-- It has found the mode on then. -/
  | ending
  /-- Its permission goes, and the mode is its own. -/
  | revoking
  | closing
  /-- It ends, and the mode is its own. -/
  | leaving
  | gone
deriving DecidableEq, Repr

structure Conn where
  id : Int32
  /-- `is_authed_remote_conn` -/
  authed : Bool := false
  /-- The permission `privacy_mode`. -/
  privacyMode : Bool
  task : Task := .idle
deriving DecidableEq, Repr

structure Machine where
  mode : Mode := {}
  conns : List Conn := []

inductive Event
  | connect (id : Int32) (privacyMode : Bool)
  | authorize (i : Nat)
  | turnOn (i : Nat) (ok : Bool)
  | turnOff (i : Nat) (ok : Bool)
  /-- The connection manager gives the permission or takes it. -/
  | switchPermission (i : Nat) (enabled : Bool)
  | close (i : Nat)
  /-- The next operation of a connection that is in the middle of something. -/
  | next (i : Nat) (ok : Bool)
  /-- A display that was added could not be blanked. -/
  | shutdown
  /-- `Data::Close`, from the machine itself. -/
  | quit (ok : Bool)
deriving DecidableEq, Repr

namespace Machine

variable (s : Machine)

def set (i : Nat) (m : Mode) (c : Conn) : Machine where
  mode := m
  conns := s.conns.set i c

/-- The next operation of a task. -/
def proceed (i : Nat) (ok : Bool) (c : Conn) : Option Machine :=
  match c.task with
  | .failed => some (s.set i s.mode { c with task := if s.mode.isInPrivacyMode then .ending else .idle })
  | .ending => some (s.set i (s.mode.turnOffPrivacy INVALID_PRIVACY_MODE_CONN_ID ok).2 { c with task := .idle })
  | .revoking =>
    match s.mode.turnOffPrivacy c.id ok with
    | (.ok (), m) => some (s.set i m { c with privacyMode := false, task := .idle })
    | (.error _, m) => some (s.set i m { c with task := .idle })
  | .closing => some (s.set i s.mode { c with task := if s.mode.connId = c.id then .leaving else .gone })
  | .leaving => some (s.set i (s.mode.turnOffPrivacy c.id ok).2 { c with task := .gone })
  | .idle => none
  | .gone => none

/-- What a connection does that is in the middle of nothing. -/
def act (i : Nat) (c : Conn) : Event → Option Machine
  | .authorize _ => some (s.set i s.mode { c with authed := true })
  | .turnOn _ ok =>
    if !c.authed || !c.privacyMode then some s
    else
      match s.mode.turnOnPrivacy c.id ok with
      | (.ok _, m) => some (s.set i m c)
      | (.error _, m) => some (s.set i m { c with task := .failed })
  | .turnOff _ ok => some (s.set i (s.mode.turnOffPrivacy c.id ok).2 c)
  | .switchPermission _ enabled =>
    if !enabled && s.mode.isInPrivacyMode && decide (s.mode.connId = c.id) then
      some (s.set i s.mode { c with task := .revoking })
    else some (s.set i s.mode { c with privacyMode := enabled })
  | .close _ => some (s.set i s.mode { c with task := .closing })
  | _ => none

/-- The connection an event is about, and whether it has to be idle for it. -/
def Event.conn : Event → Option Nat
  | .authorize i => some i
  | .turnOn i _ => some i
  | .turnOff i _ => some i
  | .switchPermission i _ => some i
  | .close i => some i
  | _ => none

def step (e : Event) : Option Machine :=
  match e with
  | .connect id privacyMode =>
    if id ≠ INVALID_PRIVACY_MODE_CONN_ID ∧ ∀ c ∈ s.conns, c.id ≠ id then
      some { s with conns := s.conns ++ [{ id := id, privacyMode := privacyMode }] }
    else none
  | .next i ok => s.conns[i]?.bind (s.proceed i ok)
  | .shutdown => some { s with mode := s.mode.shutdown }
  | .quit ok => some { s with mode := (s.mode.turnOffPrivacy INVALID_PRIVACY_MODE_CONN_ID ok).2 }
  | e => (Event.conn e).bind fun i => s.conns[i]?.bind fun c => if c.task = .idle then s.act i c e else none

def Init (s : Machine) : Prop := s = {}

end Machine

/-! ## The invariant -/

/-- Its own request to turn the mode on has failed. -/
def Task.refused : Task → Bool
  | .failed => true
  | .ending => true
  | _ => false

/-- It is there, is authorized and has the permission. -/
structure Conn.Entitled (c : Conn) : Prop where
  authed : c.authed = true
  privacyMode : c.privacyMode = true
  there : c.task ≠ .gone

namespace Machine

variable {s s' : Machine} {i : Nat} {c : Conn}

structure Held (s : Machine) : Prop where
  nonzero : ∀ c ∈ s.conns, c.id ≠ INVALID_PRIVACY_MODE_CONN_ID
  nodup : (s.conns.map Conn.id).Nodup
  holder : s.mode.active = true → ∃ c ∈ s.conns, c.id = s.mode.connId ∧ c.Entitled
  refused : ∀ c ∈ s.conns, c.task.refused = true → c.id ≠ s.mode.connId

/-- The holder is the connection with its id. -/
theorem Held.entitled (h : s.Held) (hc : s.conns[i]? = some c) (hactive : s.mode.active = true)
    (hid : s.mode.connId = c.id) : c.Entitled := by
  obtain ⟨d, hd, hdid, hent⟩ := h.holder hactive
  obtain ⟨k, hk⟩ := List.mem_iff_getElem?.1 hd
  have hik : i = k := index_unique h.nodup hc hk (hid.symm.trans hdid.symm)
  subst hik
  rw [hc] at hk
  exact Option.some.inj hk ▸ hent

theorem Held.mode_ne (h : s.Held) (hactive : s.mode.active = true) : s.mode.connId ≠ INVALID_PRIVACY_MODE_CONN_ID := by
  obtain ⟨d, hd, hdid, -⟩ := h.holder hactive
  rw [← hdid]
  exact h.nonzero d hd

/-- A connection writes itself and the mode: it may take the mode, leave it alone or give it up. -/
theorem Held.set (h : s.Held) (hc : s.conns[i]? = some c) {m : Mode} {d : Conn} (hid : d.id = c.id)
    (hmode : m.connId = s.mode.connId ∨ m.connId = INVALID_PRIVACY_MODE_CONN_ID ∨ m.connId = c.id)
    (hholder : m.active = true → m.connId = c.id ∧ d.Entitled ∨
      m.connId ≠ c.id ∧ m.connId = s.mode.connId ∧ s.mode.active = true)
    (hrefused : d.task.refused = true → c.id ≠ m.connId) : (s.set i m d).Held := by
  have hmem := List.mem_of_getElem? hc
  have hmap : (s.conns.set i d).map Conn.id = s.conns.map Conn.id := by
    obtain ⟨hi, rfl⟩ := List.getElem?_eq_some_iff.1 hc
    have hi' : i < (s.conns.map Conn.id).length := by simpa using hi
    rw [List.map_set, hid, ← List.getElem_map Conn.id (h := hi')]
    exact List.set_getElem_self hi'
  refine ⟨?_, ?_, ?_, ?_⟩
  · intro e he
    rcases List.mem_or_eq_of_mem_set he with he | rfl
    · exact h.nonzero e he
    · rw [hid]
      exact h.nonzero c hmem
  · show ((s.conns.set i d).map Conn.id).Nodup
    rw [hmap]
    exact h.nodup
  · intro hactive
    rcases hholder hactive with ⟨hown, hent⟩ | ⟨hne, hsame, hwas⟩
    · exact ⟨d, List.mem_of_getElem? (List.getElem?_set_self (List.getElem?_eq_some_iff.1 hc).1), hid.trans hown.symm, hent⟩
    · obtain ⟨e, he, heid, hent⟩ := h.holder hwas
      refine ⟨e, mem_set_of_ne hc he ?_, heid.trans hsame.symm, hent⟩
      rintro rfl
      exact hne (hsame.trans heid.symm)
  · intro e he href
    obtain ⟨k, hk⟩ := List.mem_iff_getElem?.1 he
    rcases getElem?_set_eq_some hk with ⟨-, rfl⟩ | ⟨hki, hk⟩
    · rw [hid]
      exact hrefused href
    · have he' := List.mem_of_getElem? hk
      show e.id ≠ m.connId
      rcases hmode with hm | hm | hm
      · rw [hm]
        exact h.refused e he' href
      · rw [hm]
        exact h.nonzero e he'
      · rw [hm]
        exact fun heq => hki (index_unique h.nodup hk hc heq)

/-- An operation that leaves the mode alone, of a connection that keeps what it is entitled to. -/
theorem Held.set_kept (h : s.Held) (hc : s.conns[i]? = some c) {d : Conn} (hid : d.id = c.id)
    (hent : c.Entitled → s.mode.connId = c.id → d.Entitled) (hrefused : d.task.refused = true → c.id ≠ s.mode.connId) :
    (s.set i s.mode d).Held := by
  refine h.set hc hid (.inl rfl) (fun hactive => ?_) hrefused
  by_cases hown : s.mode.connId = c.id
  · exact .inl ⟨hown, hent (h.entitled hc hactive hown) hown⟩
  · exact .inr ⟨hown, rfl, hactive⟩

/-- Turning off, by the connection's own id or by none, and whatever becomes of the connection with it. -/
theorem Held.set_off (h : s.Held) (hc : s.conns[i]? = some c) {d : Conn} (hid : d.id = c.id) {connId : Int32} {ok : Bool}
    (hconn : connId = INVALID_PRIVACY_MODE_CONN_ID ∨ connId = c.id) (hrefused : d.task.refused = false) :
    (s.set i (s.mode.turnOffPrivacy connId ok).2 d).Held := by
  have hne := h.nonzero c (List.mem_of_getElem? hc)
  have hnot : d.task.refused = true → c.id ≠ (s.mode.turnOffPrivacy connId ok).2.connId := by
    rw [hrefused]
    exact fun h => by cases h
  rcases s.mode.turnOffPrivacy_cases connId ok with ⟨heq, -, hid0, hother⟩ | ⟨-, heq | ⟨-, -, heq⟩⟩
  · -- The mode is someone else's.
    rw [heq] at hnot ⊢
    have hown : s.mode.connId ≠ c.id := by
      rcases hconn with h0 | h1
      · exact absurd h0 hid0
      · exact h1 ▸ hother
    exact h.set hc hid (.inl rfl) (fun hactive => .inr ⟨hown, rfl, hactive⟩) hnot
  · rw [heq] at hnot ⊢
    exact h.set hc hid (.inr (.inl rfl)) (fun hactive => by cases hactive) hnot
  · rw [heq] at hnot ⊢
    exact h.set hc hid (.inl rfl) (fun hactive => by cases hactive) hnot

theorem held_turnOn (h : s.Held) (hc : s.conns[i]? = some c) (hidle : c.task = .idle) (hauth : c.authed = true)
    (hperm : c.privacyMode = true) {ok : Bool} {r : Except PrivacyError Bool} {m : Mode}
    (hon : s.mode.turnOnPrivacy c.id ok = (r, m)) {d : Conn} (hd : d = c ∧ r = .ok true ∨
      d = { c with task := .failed } ∧ ∃ e, r = .error e) : (s.set i m d).Held := by
  have hent : c.Entitled := ⟨hauth, hperm, by rw [hidle]; decide⟩
  have hne := h.nonzero c (List.mem_of_getElem? hc)
  rcases s.mode.turnOnPrivacy_cases c.id ok with ⟨hsame, heq⟩ | ⟨hother, -, heq⟩ | ⟨hother, hfree, heq | ⟨hact, heq⟩⟩
  · rw [heq] at hon
    cases hon
    obtain ⟨rfl, -⟩ | ⟨-, e, he⟩ := hd
    · exact h.set_kept hc rfl (fun h _ => h) (by rw [hidle]; exact fun h => by cases h)
    · cases he
  · rw [heq] at hon
    cases hon
    obtain ⟨-, he⟩ | ⟨rfl, -⟩ := hd
    · cases he
    · exact h.set_kept hc rfl (fun _ hown => absurd hown hother) fun _ => hother.symm
  · rw [heq] at hon
    cases hon
    obtain ⟨rfl, -⟩ | ⟨-, e, he⟩ := hd
    · exact h.set hc rfl (.inr (.inr rfl)) (fun _ => .inl ⟨rfl, hent⟩) (by rw [hidle]; exact fun h => by cases h)
    · cases he
  · rw [heq] at hon
    cases hon
    obtain ⟨-, he⟩ | ⟨rfl, -⟩ := hd
    · cases he
    · exact h.set hc rfl (.inl rfl) (fun h => by cases h) fun _ => by rw [hfree]; exact hne

theorem held_proceed (h : s.Held) (hc : s.conns[i]? = some c) {ok : Bool} (hstep : s.proceed i ok c = some s') :
    s'.Held := by
  unfold proceed at hstep
  cases ht : c.task with
  | idle => rw [ht] at hstep; cases hstep
  | gone => rw [ht] at hstep; cases hstep
  | failed =>
    rw [ht] at hstep
    cases hstep
    refine h.set_kept hc rfl (fun hent _ => ⟨hent.authed, hent.privacyMode, ?_⟩) fun _ => ?_
    · dsimp only
      split <;> decide
    · exact h.refused c (List.mem_of_getElem? hc) (by rw [ht]; rfl)
  | ending =>
    rw [ht] at hstep
    cases hstep
    exact h.set_off (d := { c with task := .idle }) hc rfl (.inl rfl) rfl
  | revoking =>
    rw [ht] at hstep
    dsimp only at hstep
    split at hstep
    · rename_i m heq
      cases hstep
      have hm : m = (s.mode.turnOffPrivacy c.id ok).2 := by rw [heq]
      rw [hm]
      exact h.set_off (d := { c with privacyMode := false, task := .idle }) hc rfl (.inr rfl) rfl
    · rename_i e m heq
      cases hstep
      have hm : m = (s.mode.turnOffPrivacy c.id ok).2 := by rw [heq]
      rw [hm]
      exact h.set_off (d := { c with task := .idle }) hc rfl (.inr rfl) rfl
  | closing =>
    rw [ht] at hstep
    cases hstep
    refine h.set_kept hc rfl (fun hent hown => ⟨hent.authed, hent.privacyMode, ?_⟩) ?_
    · dsimp only
      rw [if_pos hown]
      decide
    · dsimp only
      split <;> exact fun h => by cases h
  | leaving =>
    rw [ht] at hstep
    cases hstep
    exact h.set_off (d := { c with task := .gone }) hc rfl (.inr rfl) rfl

theorem held_act (h : s.Held) (hc : s.conns[i]? = some c) (hidle : c.task = .idle) {e : Event}
    (hstep : s.act i c e = some s') : s'.Held := by
  have hnot : ∀ {P : Prop}, c.task.refused = true → P := by
    rw [hidle]
    exact fun h => by cases h
  cases e with
  | authorize k =>
    cases hstep
    exact h.set_kept hc rfl (fun hent _ => ⟨rfl, hent.privacyMode, hent.there⟩) hnot
  | turnOn k ok =>
    simp only [act] at hstep
    split at hstep
    · cases hstep
      exact h
    · rename_i hperm
      simp only [Bool.or_eq_true, Bool.not_eq_true', not_or, Bool.not_eq_false] at hperm
      split at hstep
      · rename_i b m hon
        cases hstep
        have hb : b = true := by
          rcases s.mode.turnOnPrivacy_cases c.id ok with ⟨-, heq⟩ | ⟨-, -, heq⟩ | ⟨-, -, heq | ⟨-, heq⟩⟩ <;>
            rw [heq] at hon <;> cases hon <;> rfl
        subst hb
        exact held_turnOn h hc hidle hperm.1 hperm.2 hon (.inl ⟨rfl, rfl⟩)
      · rename_i e m hon
        cases hstep
        exact held_turnOn h hc hidle hperm.1 hperm.2 hon (.inr ⟨rfl, e, rfl⟩)
  | turnOff k ok =>
    cases hstep
    exact h.set_off hc rfl (.inr rfl) (by rw [hidle]; rfl)
  | switchPermission k enabled =>
    simp only [act] at hstep
    split at hstep
    · cases hstep
      exact h.set_kept hc rfl (fun hent _ => ⟨hent.authed, hent.privacyMode, nofun⟩) fun h => by cases h
    · rename_i hcond
      cases hstep
      refine h.set_kept hc rfl (fun hent hown => ⟨hent.authed, ?_, hent.there⟩) hnot
      by_contra hoff
      refine hcond ?_
      have hne := h.nonzero c (List.mem_of_getElem? hc)
      have henabled : enabled = false := Bool.eq_false_iff.2 hoff
      have hin : s.mode.isInPrivacyMode = true := by
        rw [Mode.isInPrivacyMode, hown]
        exact bne_iff_ne.2 hne
      rw [henabled, hin, hown]
      simp
  | close k =>
    cases hstep
    exact h.set_kept hc rfl (fun hent _ => ⟨hent.authed, hent.privacyMode, nofun⟩) fun h => by cases h
  | _ => cases hstep

theorem held_mode (h : s.Held) {m : Mode} (hactive : m.active = true → s.mode.active = true ∧ m.connId = s.mode.connId)
    (hconn : m.connId = s.mode.connId ∨ m.connId = INVALID_PRIVACY_MODE_CONN_ID) : Held { s with mode := m } := by
  refine ⟨h.nonzero, h.nodup, fun hact => ?_, fun c hc href => ?_⟩
  · obtain ⟨hwas, hsame⟩ := hactive hact
    obtain ⟨c, hc, hid, hent⟩ := h.holder hwas
    exact ⟨c, hc, hid.trans hsame.symm, hent⟩
  · show c.id ≠ m.connId
    rcases hconn with hsame | hfree
    · rw [hsame]
      exact h.refused c hc href
    · rw [hfree]
      exact h.nonzero c hc

theorem held_step {e : Event} (h : s.Held) (hstep : s.step e = some s') : s'.Held := by
  have hidle : ∀ {i : Nat}, (s.conns[i]?.bind fun c => if c.task = .idle then s.act i c e else none) = some s' →
      s'.Held := by
    intro i hstep
    obtain ⟨c, hc, hstep⟩ := Option.bind_eq_some_iff.1 hstep
    split at hstep
    · rename_i ht
      exact held_act h hc ht hstep
    · cases hstep
  cases e with
  | connect id privacyMode =>
    unfold step at hstep
    dsimp only at hstep
    split at hstep
    · rename_i hfresh
      cases hstep
      refine ⟨?_, ?_, fun hactive => ?_, ?_⟩
      · intro c hc
        rcases List.mem_append.1 hc with hc | hc
        · exact h.nonzero c hc
        · rw [List.mem_singleton.1 hc]
          exact hfresh.1
      · rw [List.map_append]
        refine List.nodup_append.2 ⟨h.nodup, List.nodup_singleton _, ?_⟩
        intro a ha b hb
        obtain ⟨c, hc, rfl⟩ := List.mem_map.1 ha
        rw [List.mem_singleton.1 hb]
        exact hfresh.2 c hc
      · obtain ⟨c, hc, hid, hent⟩ := h.holder hactive
        exact ⟨c, List.mem_append_left _ hc, hid, hent⟩
      · intro c hc href
        rcases List.mem_append.1 hc with hc | hc
        · exact h.refused c hc href
        · rw [List.mem_singleton.1 hc] at href
          cases href
    · cases hstep
  | next i ok =>
    obtain ⟨c, hc, hstep⟩ := Option.bind_eq_some_iff.1 hstep
    exact held_proceed h hc hstep
  | shutdown =>
    cases hstep
    exact held_mode h (fun hact => by cases hact) (.inl rfl)
  | quit ok =>
    cases hstep
    rcases s.mode.turnOffPrivacy_cases INVALID_PRIVACY_MODE_CONN_ID ok with ⟨-, -, h0, -⟩ | ⟨-, heq | ⟨-, -, heq⟩⟩
    · exact absurd rfl h0
    · rw [heq]
      exact held_mode h (fun hact => by cases hact) (.inr rfl)
    · rw [heq]
      exact held_mode h (fun hact => by cases hact) (.inl rfl)
  | authorize i => exact hidle hstep
  | turnOn i ok => exact hidle hstep
  | turnOff i ok => exact hidle hstep
  | switchPermission i enabled => exact hidle hstep
  | close i => exact hidle hstep

theorem held_of_reachable (h : Reachable Init step s) : s.Held := by
  refine Reachable.invariant ?_ (fun s e s' hs hstep => held_step hs hstep) h
  rintro s rfl
  exact ⟨fun c hc => (by cases hc), List.nodup_nil, fun h => (by cases h), fun c hc => (by cases hc)⟩

/-! ## Who ends it -/

/-- The steps that can end the mode while the displays are blank. -/
inductive Ends (s : Machine) : Event → Prop
  /-- The holder asks for it. -/
  | asked {i : Nat} {c : Conn} {ok : Bool} : s.conns[i]? = some c → c.id = s.mode.connId → Ends s (.turnOff i ok)
  /-- The holder loses its permission, or ends. -/
  | lost {i : Nat} {c : Conn} {ok : Bool} : s.conns[i]? = some c → c.id = s.mode.connId →
      c.task = .revoking ∨ c.task = .leaving → Ends s (.next i ok)
  /-- Another connection wanted the mode and did not get it. -/
  | refused {i : Nat} {c : Conn} {ok : Bool} : s.conns[i]? = some c → c.id ≠ s.mode.connId → c.task = .ending →
      Ends s (.next i ok)
  | shutdown : Ends s .shutdown
  | quit {ok : Bool} : Ends s (.quit ok)

theorem off_of_other {connId : Int32} {ok : Bool} (hother : s.mode.connId ≠ connId)
    (hheld : s.mode.connId ≠ INVALID_PRIVACY_MODE_CONN_ID) (hid : connId ≠ INVALID_PRIVACY_MODE_CONN_ID) :
    (s.mode.turnOffPrivacy connId ok).2 = s.mode := by
  rcases s.mode.turnOffPrivacy_cases connId ok with ⟨heq, -⟩ | ⟨h0 | h0 | h0, -⟩
  · rw [heq]
  · exact absurd h0 hheld
  · exact absurd h0 hid
  · exact absurd h0 hother

theorem ends_proceed (h : s.Held) (hc : s.conns[i]? = some c) {ok : Bool} (hstep : s.proceed i ok c = some s')
    (hactive : s.mode.active = true) (hoff : s'.mode.active = false) : s.Ends (.next i ok) := by
  have hmem := List.mem_of_getElem? hc
  have hsame : s'.mode = s.mode → False := by
    intro heq
    rw [heq, hactive] at hoff
    cases hoff
  have hown : c.id = s.mode.connId ∨ (s.mode.turnOffPrivacy c.id ok).2 = s.mode := by
    by_cases hid : c.id = s.mode.connId
    · exact .inl hid
    · exact .inr (off_of_other (Ne.symm hid) (h.mode_ne hactive) (h.nonzero c hmem))
  unfold proceed at hstep
  cases ht : c.task with
  | idle => rw [ht] at hstep; cases hstep
  | gone => rw [ht] at hstep; cases hstep
  | failed =>
    rw [ht] at hstep
    cases hstep
    exact (hsame rfl).elim
  | ending => exact .refused hc (h.refused c hmem (by rw [ht]; rfl)) ht
  | revoking =>
    rw [ht] at hstep
    dsimp only at hstep
    rcases hown with hid | hnone
    · exact .lost hc hid (.inl ht)
    · refine (hsame ?_).elim
      split at hstep
      · rename_i m heq
        cases hstep
        rw [heq] at hnone
        exact hnone
      · rename_i e m heq
        cases hstep
        rw [heq] at hnone
        exact hnone
  | closing =>
    rw [ht] at hstep
    cases hstep
    exact (hsame rfl).elim
  | leaving =>
    rw [ht] at hstep
    cases hstep
    rcases hown with hid | hnone
    · exact .lost hc hid (.inr ht)
    · exact (hsame hnone).elim

theorem ends_act (h : s.Held) (hc : s.conns[i]? = some c) {e : Event} (he : Event.conn e = some i)
    (hstep : s.act i c e = some s') (hactive : s.mode.active = true) (hoff : s'.mode.active = false) : s.Ends e := by
  have hmem := List.mem_of_getElem? hc
  have hsame : s'.mode = s.mode → False := by
    intro heq
    rw [heq, hactive] at hoff
    cases hoff
  cases e with
  | authorize k =>
    cases hstep
    exact (hsame rfl).elim
  | turnOn k ok =>
    -- The mode is held: nobody's request changes it.
    have hmode : (s.mode.turnOnPrivacy c.id ok).2 = s.mode := by
      rcases s.mode.turnOnPrivacy_cases c.id ok with ⟨-, heq⟩ | ⟨-, -, heq⟩ | ⟨-, h0, -⟩
      · rw [heq]
      · rw [heq]
      · exact absurd h0 (h.mode_ne hactive)
    refine (hsame ?_).elim
    simp only [act] at hstep
    split at hstep
    · cases hstep
      rfl
    · split at hstep
      · rename_i b m hon
        cases hstep
        rw [hon] at hmode
        exact hmode
      · rename_i e m hon
        cases hstep
        rw [hon] at hmode
        exact hmode
  | turnOff k ok =>
    cases he
    cases hstep
    by_cases hid : c.id = s.mode.connId
    · exact .asked hc hid
    · exact (hsame (off_of_other (Ne.symm hid) (h.mode_ne hactive) (h.nonzero c hmem))).elim
  | switchPermission k enabled =>
    refine (hsame ?_).elim
    simp only [act] at hstep
    split at hstep <;> (cases hstep; rfl)
  | close k =>
    cases hstep
    exact (hsame rfl).elim
  | _ => cases he

theorem ends_step {e : Event} (h : s.Held) (hstep : s.step e = some s') (hactive : s.mode.active = true)
    (hoff : s'.mode.active = false) : s.Ends e := by
  have hidle : ∀ {i : Nat}, Event.conn e = some i →
      (s.conns[i]?.bind fun c => if c.task = .idle then s.act i c e else none) = some s' → s.Ends e := by
    intro i he hstep
    obtain ⟨c, hc, hstep⟩ := Option.bind_eq_some_iff.1 hstep
    split at hstep
    · exact ends_act h hc he hstep hactive hoff
    · cases hstep
  cases e with
  | connect id privacyMode =>
    unfold step at hstep
    dsimp only at hstep
    split at hstep
    · cases hstep
      rw [hactive] at hoff
      cases hoff
    · cases hstep
  | next i ok =>
    obtain ⟨c, hc, hstep⟩ := Option.bind_eq_some_iff.1 hstep
    exact ends_proceed h hc hstep hactive hoff
  | shutdown => exact .shutdown
  | quit ok => exact .quit
  | authorize i => exact hidle rfl hstep
  | turnOn i ok => exact hidle rfl hstep
  | turnOff i ok => exact hidle rfl hstep
  | switchPermission i enabled => exact hidle rfl hstep
  | close i => exact hidle rfl hstep

/-- A request that comes while another holds the mode is refused, and then takes it from the other. -/
theorem contested (h : s.Held) (hactive : s.mode.active = true) (hc : s.conns[i]? = some c) (hidle : c.task = .idle)
    (hauth : c.authed = true) (hperm : c.privacyMode = true) (hother : c.id ≠ s.mode.connId) (ok ok' : Bool) :
    ∃ s', runs step s [.turnOn i ok, .next i ok', .next i true] = some s' ∧ s'.mode = {} := by
  have hheld := h.mode_ne hactive
  have hon : s.mode.turnOnPrivacy c.id ok = (.error .OCCUPIED, s.mode) := by
    rcases s.mode.turnOnPrivacy_cases c.id ok with ⟨hsame, -⟩ | ⟨-, -, heq⟩ | ⟨-, h0, -⟩
    · exact absurd hsame.symm hother
    · exact heq
    · exact absurd h0 hheld
  have hin : s.mode.isInPrivacyMode = true := bne_iff_ne.2 hheld
  have hoff : s.mode.turnOffPrivacy INVALID_PRIVACY_MODE_CONN_ID true = (.ok (), {}) := by
    rcases s.mode.turnOffPrivacy_cases INVALID_PRIVACY_MODE_CONN_ID true with ⟨-, -, h0, -⟩ | ⟨-, heq | ⟨-, hok, -⟩⟩
    · exact absurd rfl h0
    · exact heq
    · cases hok
  have hlt := (List.getElem?_eq_some_iff.1 hc).1
  have hact : s.act i c (.turnOn i ok) = some (s.set i s.mode { c with task := .failed }) := by
    have hmay : ¬(!c.authed || !c.privacyMode) = true := by
      rw [hauth, hperm]
      exact Bool.false_ne_true
    unfold act
    dsimp only
    rw [if_neg hmay, hon]
  have h1 : s.step (.turnOn i ok) = some (s.set i s.mode { c with task := .failed }) := by
    show (s.conns[i]?.bind fun c => if c.task = .idle then s.act i c (.turnOn i ok) else none) = _
    rw [hc, Option.bind_some, if_pos hidle, hact]
  have h2 : (s.set i s.mode { c with task := .failed }).step (.next i ok') =
      some ((s.set i s.mode { c with task := .failed }).set i s.mode { c with task := .ending }) := by
    show ((s.conns.set i { c with task := .failed })[i]?.bind _) = _
    rw [List.getElem?_set_self hlt, Option.bind_some]
    have htask : (if s.mode.isInPrivacyMode then Task.ending else .idle) = .ending := by rw [hin]; rfl
    show some ((s.set i s.mode _).set i s.mode { c with task := if s.mode.isInPrivacyMode then .ending else .idle }) = _
    rw [htask]
  have h3 : ((s.set i s.mode { c with task := .failed }).set i s.mode { c with task := .ending }).step (.next i true) =
      some (((s.set i s.mode { c with task := .failed }).set i s.mode { c with task := .ending }).set i {}
        { c with task := .idle }) := by
    show (((s.conns.set i { c with task := .failed }).set i { c with task := .ending })[i]?.bind _) = _
    rw [List.getElem?_set_self (by rw [List.length_set]; exact hlt), Option.bind_some]
    show some (((s.set i s.mode _).set i s.mode _).set i (s.mode.turnOffPrivacy INVALID_PRIVACY_MODE_CONN_ID true).2
      { c with task := .idle }) = _
    rw [hoff]
  have hruns : runs step s [.turnOn i ok, .next i ok', .next i true] =
      some (((s.set i s.mode { c with task := .failed }).set i s.mode { c with task := .ending }).set i {}
        { c with task := .idle }) := by
    rw [runs, h1, Option.bind_some, runs, h2, Option.bind_some, runs, h3, Option.bind_some]
    rfl
  exact ⟨_, hruns, rfl⟩

end Machine

section Reached

variable {s : Machine}

/-- Over every run of the connections, the person at the machine and its displays: displays are blank only for a
connection that is there, is authorized and has the permission; the mode is ended by that connection, by the machine,
or by another connection whose own request was refused, and by nobody else's request to turn it off; and a request to
turn it on, of a connection that may ask for it while another holds the mode, does end it. -/
theorem privacy_mode_held (h : Reachable Machine.Init Machine.step s) :
    (s.mode.active = true → ∃ c ∈ s.conns, c.id = s.mode.connId ∧ c.Entitled) ∧
    (∀ e s', s.step e = some s' → s.mode.active = true → s'.mode.active = false → s.Ends e) ∧
    (∀ i c ok ok', s.mode.active = true → s.conns[i]? = some c → c.task = .idle → c.Entitled →
      c.id ≠ s.mode.connId →
      ∃ s', runs Machine.step s [.turnOn i ok, .next i ok', .next i true] = some s' ∧ s'.mode = {}) := by
  have hheld := Machine.held_of_reachable h
  refine ⟨hheld.holder, fun e s' hstep hactive hoff => Machine.ends_step hheld hstep hactive hoff, ?_⟩
  intro i c ok ok' hactive hc hidle hent hother
  exact Machine.contested hheld hactive hc hidle hent.authed hent.privacyMode hother ok ok'

end Reached

/-- The first of two connections has the mode, and the second asks for it. -/
theorem privacy_mode_held_contested : ∃ s s',
    runs Machine.step {} [.connect 1 true, .connect 2 true, .authorize 0, .authorize 1, .turnOn 0 true] = some s ∧
    s.mode = ⟨1, true⟩ ∧ (∃ c ∈ s.conns, c.id = s.mode.connId ∧ c.Entitled) ∧
    runs Machine.step s [.turnOn 1 true, .next 1 true, .next 1 true] = some s' ∧ s'.mode = {} := by
  obtain ⟨s, hs⟩ : ∃ s, runs Machine.step {} [.connect 1 true, .connect 2 true, .authorize 0, .authorize 1,
      .turnOn 0 true] = some s := ⟨_, rfl⟩
  have hstart : Reachable Machine.Init Machine.step {} := ⟨[], .start rfl⟩
  obtain ⟨hholder, -, hcontested⟩ := privacy_mode_held (hstart.append hs)
  cases hs
  obtain ⟨s', hs', hfree⟩ := hcontested 1 ⟨2, true, true, .idle⟩ true true rfl rfl rfl ⟨rfl, rfl, nofun⟩ (by decide)
  exact ⟨_, s', rfl, rfl, hholder rfl, hs', hfree⟩

end FontisRemote.Privacy
