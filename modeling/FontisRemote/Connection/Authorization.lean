import FontisRemote.Connection.Turns

/-!
# Who is let in

A connection becomes authorized in one step, and what justifies it lies in the history of the run: the
connection manager's consent, a switch of sides this side asked for, or a password with the second
factor that was required when the connection started. `Justified` is the last two of these for a
connection that is still waiting for the connect of its port forward; it is kept by every step that is
not a login request on the connection.
-/

namespace FontisRemote.Connection

open FontisRemote.Lib FontisRemote.Login

/-- The steps of a run, newest first, each with the world it was taken in. -/
abbrev History := List (World × Event)

def Event.IsLogin (i : Nat) (ev : Event) : Prop := ∃ e lr, ev = .conn i e (.recv (.loginRequest lr))

def AuthorizedAt (w : World) (i : Nat) : Prop := ∃ c, w.conns[i]? = some c ∧ c.login.authorized = true

/-- The step authorizes the connection. -/
def Authorizes (k : Crypto) (b : Build) (p : World × Event) (i : Nat) : Prop :=
  ¬AuthorizedAt p.1 i ∧ ∃ w', World.step k b p.1 p.2 = some w' ∧ AuthorizedAt w' i

/-- The configuration connection `i` was started with. -/
def StartedWith (h : History) (i : Nat) (m : Meta) : Prop :=
  ∃ p ∈ h, p.2 = .start m ∧ p.1.conns.length = i

/-! ## The connection manager -/

/-- The connection manager has sent `Authorize`, and since then the connection has at most waited for
its connect. -/
def Approved (i : Nat) (h : History) : Prop :=
  ∃ newer w e older, h = newer ++ (w, .conn i e .authorize) :: older ∧
    ∀ p ∈ newer, ∀ e' ev, p.2 = .conn i e' ev → ev = .connected true

/-! ## Switching sides -/

/-- The step authorizes a connection by a switch-sides response for this id. -/
def SwitchAuthorizes (k : Crypto) (b : Build) (p : World × Event) (id : String) : Prop :=
  ∃ j e r lr, p.2 = .conn j e (.recv (.switchSidesResponse r)) ∧ r.lr = some lr ∧ lr.myId.1 = id ∧
    Authorizes k b p j

/-- A uuid was stored for the id by a step since which no response for it has authorized anyone. -/
def StoredUuid (k : Crypto) (b : Build) (h : History) (id : String) (t : Nat) (uuid : Bytes) : Prop :=
  ∃ mid w older, h = mid ++ (w, .insertSwitchSidesUuid t id uuid) :: older ∧
    ∀ p ∈ mid, ¬SwitchAuthorizes k b p id

/-- The last step is a switch-sides response with the uuid stored for its id, not expired. -/
def SwitchedSides (k : Crypto) (b : Build) (i : Nat) (h : History) : Prop :=
  ∃ w e r lr t older, h = (w, .conn i e (.recv (.switchSidesResponse r))) :: older ∧
    r.lr = some lr ∧ w.shared.switchSidesUuid lr.myId.1 = some (t, r.uuid) ∧
    e.now - t < switchSidesUuidTtl ∧ StoredUuid k b older lr.myId.1 t r.uuid

/-! ## Passwords and second factors -/

/-- The most recent login request of a connection. -/
structure LastLogin (i : Nat) (h newer : History) (w : World) (e : Env) (lr : LoginRequest)
    (older : History) : Prop where
  split : h = newer ++ (w, .conn i e (.recv (.loginRequest lr))) :: older
  last : ∀ p ∈ newer, ¬p.2.IsLogin i

/-- The step is a code that is right, on a connection that waits for one. -/
def CodeVerified (k : Crypto) (i : Nat) (totp : Totp) (key : SessionKey) (p : World × Event) : Prop :=
  ∃ e tfa c, p.2 = .conn i e (.recv (.auth2fa tfa)) ∧ p.1.conns[i]? = some c ∧
    c.login.awaiting2fa = true ∧ c.sessionKey = key ∧ k.checkCode totp e.now tfa.code = some true

/-- A request on the connection came from a trusted device. -/
def Trusted (i : Nat) (h : History) : Prop :=
  ∃ p ∈ h, ∃ e lr, p.2 = .conn i e (.recv (.loginRequest lr)) ∧ skips2fa e lr = true

/-- A code has been verified for the session. -/
def Marked (k : Crypto) (h : History) (key : SessionKey) : Prop :=
  ∃ p ∈ h, ∃ j totp, CodeVerified k j totp key p

/-- The last login request of a connection carried a password that is right. -/
def PasswordMet (k : Crypto) (i : Nat) (w : World) (e : Env) (lr : LoginRequest) : Prop :=
  ∃ c m, w.conns[i]? = some c ∧ Verified k e w.shared { c.login with lr := lr } m

/-- The second factor of a connection whose last login request is given. -/
inductive SecondFactor (k : Crypto) (i : Nat) (h newer : History) (w : World) (e : Env)
    (lr : LoginRequest) (older : History) : Prop
  | notConfigured {m : Meta} (started : StartedWith h i m) (none : m.require2fa = none)
  | code {m : Meta} {totp : Totp} {key : SessionKey} {p : World × Event} (started : StartedWith h i m)
      (configured : m.require2fa = some totp) (after : p ∈ newer)
      (verified : CodeVerified k i totp key p)
  | trusted (trusted : Trusted i h)
  | session {s : Session} (found : w.shared.sessions lr.sessionKey = some s)
      (live : w.shared.Live e.now s) (tfa : s.tfa = true) (marked : Marked k older lr.sessionKey)

/-- The most recent login request carried a password that is right, and the second factor is met. -/
def LoggedIn (k : Crypto) (i : Nat) (h : History) : Prop :=
  ∃ newer w e lr older, LastLogin i h newer w e lr older ∧ PasswordMet k i w e lr ∧
    SecondFactor k i h newer w e lr older

/-! ## What is kept by a step -/

section Cons

variable {k : Crypto} {b : Build} {i : Nat} {h : History} {p : World × Event}

theorem StartedWith.cons {m : Meta} (hs : StartedWith h i m) : StartedWith (p :: h) i m := by
  obtain ⟨q, hq, hstart⟩ := hs
  exact ⟨q, List.mem_cons_of_mem _ hq, hstart⟩

theorem Trusted.cons (ht : Trusted i h) : Trusted i (p :: h) := by
  obtain ⟨q, hq, htrust⟩ := ht
  exact ⟨q, List.mem_cons_of_mem _ hq, htrust⟩

theorem Marked.cons {key : SessionKey} (hm : Marked k h key) : Marked k (p :: h) key := by
  obtain ⟨q, hq, hv⟩ := hm
  exact ⟨q, List.mem_cons_of_mem _ hq, hv⟩

theorem Approved.cons (ha : Approved i h)
    (hp : ∀ e ev, p.2 = .conn i e ev → ev = .connected true) : Approved i (p :: h) := by
  obtain ⟨newer, w, e, older, rfl, hn⟩ := ha
  refine ⟨p :: newer, w, e, older, rfl, ?_⟩
  intro q hq
  rcases List.mem_cons.1 hq with rfl | hq
  · exact hp
  · exact hn q hq

theorem StoredUuid.cons {id : String} {t : Nat} {uuid : Bytes} (hs : StoredUuid k b h id t uuid)
    (hp : ¬SwitchAuthorizes k b p id) : StoredUuid k b (p :: h) id t uuid := by
  obtain ⟨mid, w, older, rfl, hm⟩ := hs
  refine ⟨p :: mid, w, older, rfl, ?_⟩
  intro q hq
  rcases List.mem_cons.1 hq with rfl | hq
  · exact hp
  · exact hm q hq

variable {newer older : History} {w : World} {e : Env} {lr : LoginRequest}

theorem LastLogin.cons (hl : LastLogin i h newer w e lr older) (hp : ¬p.2.IsLogin i) :
    LastLogin i (p :: h) (p :: newer) w e lr older where
  split := by rw [hl.split]; rfl
  last q hq := by
    rcases List.mem_cons.1 hq with rfl | hq
    · exact hp
    · exact hl.last q hq

theorem SecondFactor.cons (hs : SecondFactor k i h newer w e lr older) :
    SecondFactor k i (p :: h) (p :: newer) w e lr older := by
  cases hs with
  | notConfigured started none => exact .notConfigured started.cons none
  | code started configured after verified =>
    exact .code started.cons configured (List.mem_cons_of_mem _ after) verified
  | trusted trusted => exact .trusted trusted.cons
  | session found live tfa marked => exact .session found live tfa marked

theorem LoggedIn.cons (hl : LoggedIn k i h) (hp : ¬p.2.IsLogin i) : LoggedIn k i (p :: h) := by
  obtain ⟨newer, w, e, lr, older, hlast, hpw, h2⟩ := hl
  exact ⟨p :: newer, w, e, lr, older, hlast.cons hp, hpw, h2.cons⟩

end Cons

/-! ## The account a history gives of a connection -/

/-- The second factor a connection still requires is the one it started with, and if it requires none
then none was configured or a trusted device asked. -/
def Configured (h : History) (i : Nat) (l : Login) : Prop :=
  ∃ m, StartedWith h i m ∧ (∀ totp, l.require2fa = some totp → m.require2fa = some totp) ∧
    (l.require2fa = none → m.require2fa = none ∨ Trusted i h)

structure Explained (k : Crypto) (h : History) (i : Nat) (c : Conn) : Prop where
  configured : c.login.authorized = false → c.phase = .running → Configured h i c.login
  awaiting : c.login.authorized = false → c.phase = .running → c.login.awaiting2fa = true →
    ∃ newer w e lr older, LastLogin i h newer w e lr older ∧ PasswordMet k i w e lr
  connecting : ∀ kont, c.phase = .connecting kont → Approved i h ∨ LoggedIn k i h

/-- What the history of a run says of the state it has reached. -/
structure Accounts (k : Crypto) (b : Build) (h : History) (w : World) : Prop where
  conns : ∀ (i : Nat) (c : Conn), w.conns[i]? = some c → Explained k h i c
  sessions : ∀ key s, w.shared.sessions key = some s → s.tfa = true → Marked k h key
  uuids : ∀ id t uuid, w.shared.switchSidesUuid id = some (t, uuid) → StoredUuid k b h id t uuid

section Explained

variable {k : Crypto} {b : Build} {i : Nat} {h : History} {w : World} {e : Env} {c c' : Conn}
  {sh' : Shared} {ev : ConnEvent}

theorem Configured.cons {l : Login} {p : World × Event} (hc : Configured h i l) :
    Configured (p :: h) i l := by
  obtain ⟨m, hs, hsome, hnone⟩ := hc
  exact ⟨m, hs.cons, hsome, fun hn => (hnone hn).imp_right Trusted.cons⟩

theorem isLogin_iff {j : Nat} : (Event.conn j e ev).IsLogin i ↔ j = i ∧ ev.IsLogin := by
  constructor
  · rintro ⟨e', lr, h⟩
    cases h
    exact ⟨rfl, trivial⟩
  · rintro ⟨rfl, hl⟩
    cases ev with
    | recv msg =>
      cases msg with
      | loginRequest lr => exact ⟨e, lr, rfl⟩
      | _ => exact hl.elim
    | _ => exact hl.elim

/-- A step of another connection, or of none. -/
theorem Explained.other {p : World × Event} (hex : Explained k h i c)
    (hp : ∀ e ev, p.2 ≠ .conn i e ev) : Explained k (p :: h) i c where
  configured hun hrun := (hex.configured hun hrun).cons
  awaiting hun hrun haw := by
    obtain ⟨newer, w, e, lr, older, hl, hpw⟩ := hex.awaiting hun hrun haw
    exact ⟨p :: newer, w, e, lr, older, hl.cons (fun ⟨e', lr', h'⟩ => hp e' _ h'), hpw⟩
  connecting kont hk := by
    rcases hex.connecting kont hk with ha | hl
    · exact .inl (ha.cons fun e' ev' h' => absurd h' (hp e' ev'))
    · exact .inr (hl.cons fun ⟨e', lr', h'⟩ => hp e' _ h')

/-- A step of the connection itself that leaves its login as it was. -/
theorem Explained.same (hex : Explained k h i c) (hlogin : c'.login.authorized = c.login.authorized)
    (hreq : c'.login.require2fa = c.login.require2fa)
    (haw : c'.login.awaiting2fa = c.login.awaiting2fa) (hph : c'.phase = c.phase)
    (hloop : ∀ kont, c.phase ≠ .connecting kont) (hplain : ev.IsLogin → c.login.authorized = true) :
    Explained k ((w, .conn i e ev) :: h) i c' where
  configured hun hrun := by
    obtain ⟨m, hs, hsome, hnone⟩ := hex.configured (hlogin ▸ hun) (hph ▸ hrun)
    exact Configured.cons ⟨m, hs, hreq ▸ hsome, hreq ▸ hnone⟩
  awaiting hun hrun ha := by
    obtain ⟨newer, w', e', lr, older, hl, hpw⟩ :=
      hex.awaiting (hlogin ▸ hun) (hph ▸ hrun) (haw ▸ ha)
    refine ⟨_, w', e', lr, older, hl.cons fun hlog => ?_, hpw⟩
    have := hplain (isLogin_iff.1 hlog).2
    rw [← hlogin, hun] at this
    cases this
  connecting kont hk := absurd (hph ▸ hk) (hloop kont)

theorem Explained.of_authorized (hauth : c'.login.authorized = true)
    (hph : ∀ kont, c'.phase ≠ .connecting kont) : Explained k h i c' where
  configured hun := absurd (hauth.symm.trans hun) (by simp)
  awaiting hun := absurd (hauth.symm.trans hun) (by simp)
  connecting kont hk := absurd hk (hph kont)

theorem Explained.of_ended (hph : c'.phase = .ended) : Explained k h i c' where
  configured _ hrun := absurd (hph.symm.trans hrun) (by simp)
  awaiting _ hrun := absurd (hph.symm.trans hrun) (by simp)
  connecting kont hk := absurd (hph.symm.trans hk) (by simp)

/-- A request that is taken in keeps the second factor, unless it comes from a trusted device. -/
theorem Configured.took {lr : LoginRequest} {m : Option Matched} (hc : Configured h i c.login)
    (ht : Took k e lr m (c.clear e) c') :
    Configured ((w, .conn i e (.recv (.loginRequest lr))) :: h) i c'.login := by
  obtain ⟨mt, hs, hsome, hnone⟩ := hc
  obtain ⟨t, hl⟩ := ht.near.login
  have hreq : c'.login.require2fa = if skips2fa e lr then none else c.login.require2fa := by
    rw [hl]
    rfl
  refine ⟨mt, hs.cons, fun totp h2 => ?_, fun h2 => ?_⟩
  · rw [hreq] at h2
    split at h2
    · cases h2
    · exact hsome totp h2
  · rw [hreq] at h2
    split at h2
    · rename_i hskip
      exact .inr ⟨_, List.mem_cons_self .., e, lr, rfl, hskip⟩
    · exact (hnone h2).imp_right Trusted.cons

theorem lastLogin_self (lr : LoginRequest) :
    LastLogin i ((w, .conn i e (.recv (.loginRequest lr))) :: h) [] w e lr h :=
  ⟨rfl, fun _ hp => (nomatch hp)⟩

/-- A password that is right, with the second factor met, is a login. -/
theorem loggedIn_of_login {lr : LoginRequest} {m : Matched} {sh₁ : Shared} {c₁ : Conn}
    (hc : w.conns[i]? = some c) (hcfg : Configured h i c.login) (hwf : c.Wf)
    (hrun : c.phase = .running) (hun : c.login.authorized = false)
    (hsess : ∀ key s, w.shared.sessions key = some s → s.tfa = true → Marked k h key)
    (hver : Verified k e w.shared { c.login with lr := lr } m)
    (hrem : Remembered e lr m w.shared sh₁) (htook : Took k e lr (some m) (c.clear e) c₁)
    (henough : ¬Needs2fa e sh₁ c₁.login) :
    LoggedIn k i ((w, .conn i e (.recv (.loginRequest lr))) :: h) := by
  refine ⟨[], w, e, lr, h, lastLogin_self lr, ⟨c, m, hc, hver⟩, ?_⟩
  obtain ⟨mt, hs, -, hnone⟩ := hcfg.took (w := w) htook
  obtain ⟨t, hl⟩ := htook.near.login
  have hlr : c₁.login.lr = lr := by
    rw [hl]
    rfl
  have hsw : c₁.login.fromSwitch = false := by
    rw [hl]
    exact (hwf.waiting hun (by simp [hrun])).2.2.1
  cases hreq : c₁.login.require2fa with
  | none =>
    rcases hnone hreq with hn | ht
    · exact .notConfigured hs hn
    · exact .trusted ht
  | some totp =>
    -- the second factor is not asked for, so the session has it already
    have hrec : recentSession2fa (sh₁.retainSessions e.now) c₁.login = true := by
      by_contra hrec
      exact henough ⟨by simp [hreq], by simpa using hrec, hsw⟩
    unfold recentSession2fa at hrec
    split at hrec
    · rename_i s hfound
      simp only [Bool.and_eq_true] at hrec
      rw [hlr] at hfound
      obtain ⟨hfound, -⟩ := sh₁.retainSessions_some hfound
      obtain ⟨hfound, hlive⟩ := hrem.recent s hfound hrec.2
      exact .session hfound hlive hrec.2 (hsess _ _ hfound hrec.2)
    · cases hrec

/-- A code that is right completes the login whose password was. -/
theorem loggedIn_of_code {tfa : Auth2fa} {totp : Totp} (hc : w.conns[i]? = some c)
    (hex : Explained k h i c) (hrun : c.phase = .running) (hun : c.login.authorized = false)
    (haw : c.login.awaiting2fa = true) (hreq : c.login.require2fa = some totp)
    (hcode : k.checkCode totp e.now tfa.code = some true) :
    LoggedIn k i ((w, .conn i e (.recv (.auth2fa tfa))) :: h) := by
  obtain ⟨newer, w', e', lr, older, hl, hpw⟩ := hex.awaiting hun hrun haw
  obtain ⟨mt, hs, hsome, -⟩ := hex.configured hun hrun
  refine ⟨_, w', e', lr, older, hl.cons (fun hlog => (isLogin_iff.1 hlog).2), hpw, ?_⟩
  exact .code hs.cons (hsome totp hreq) (List.mem_cons_self ..)
    ⟨e, tfa, c, rfl, hc, haw, rfl, hcode⟩

theorem approved_self : Approved i ((w, .conn i e .authorize) :: h) :=
  ⟨[], w, e, h, rfl, fun _ hp => (nomatch hp)⟩

/-- What a decision leaves, but for a second factor that is asked for, is explained by what entered
it. -/
theorem Explained.decided {kont : Kont} {sh₁ : Shared} {c₁ : Conn}
    (hd : Decides b e kont sh₁ c₁ sh' c') (hrun : c₁.phase = .running)
    (hwaits : ¬Needs2fa e sh₁ c₁.login → kont ≠ .switchSides → Approved i h ∨ LoggedIn k i h)
    (hswitch : kont = .switchSides → c₁.login.lr.union = none)
    (hsecond : Needs2fa e sh₁ c₁.login →
      Near { c₁ with login := { c₁.login with awaiting2fa := true } } c' → Explained k h i c') :
    Explained k h i c' := by
  cases hd with
  | second needs near => exact hsecond needs near
  | refused gone _ => exact .of_ended gone.phase
  | waits enough union single near _ =>
    have hk : kont ≠ .switchSides := by
      intro hk
      rw [hswitch hk] at union
      cases union
    have hph : c'.phase = .connecting kont := near.phase
    refine ⟨fun _ hr => ?_, fun _ hr => ?_, fun _ _ => hwaits enough hk⟩
    · exact absurd (hph.symm.trans hr) (by simp)
    · exact absurd (hph.symm.trans hr) (by simp)
  | @granted sh₀ c₂ _ _ near _ =>
    obtain ⟨o, hl⟩ := @grant_login b e kont sh₀ c₂
    refine .of_authorized (congrArg Login.authorized hl) ?_
    rw [grant_phase, near.phase]
    simp [hrun]

/-- A turn of a connection whose history explains it is explained by the history with it. -/
theorem Explained.turn (hwf : c.Wf) (hc : w.conns[i]? = some c) (hex : Explained k h i c)
    (hsess : ∀ key s, w.shared.sessions key = some s → s.tfa = true → Marked k h key)
    (ht : Turn k b e w.shared (c.clear e) ev sh' c') : Explained k ((w, .conn i e ev) :: h) i c' := by
  cases ht with
  | quiet loop plain near _ =>
    obtain ⟨t, hl⟩ := near.login
    exact hex.same (by rw [hl]; rfl) (by rw [hl]; rfl) (by rw [hl]; rfl) near.phase loop plain
  | forwards _ authorized near _ =>
    refine .of_authorized (near.authorized.trans authorized) ?_
    rw [near.phase]
    simp
  | gone gone _ => exact .of_ended gone.phase
  | message running authorized _ same _ =>
    rw [same]
    exact .of_authorized authorized (by simp [running])
  | permission running _ same =>
    rw [same]
    exact hex.same rfl rfl rfl rfl (by rw [show c.phase = .running from running]; simp) False.elim
  | calls running plain _ same =>
    rw [same]
    exact hex.same rfl rfl rfl rfl (by rw [show c.phase = .running from running]; simp)
      (fun hl => absurd hl plain)
  | asked running waiting took _ =>
    obtain ⟨t, hl⟩ := took.near.login
    refine ⟨fun _ _ => (hex.configured waiting running).took took, fun _ _ haw => ?_,
      fun kont hk => ?_⟩
    · rw [hl] at haw
      cases haw
    · rw [took.near.phase] at hk
      exact absurd (running.symm.trans hk) (by simp)
  | login running waiting verified remembered took decides =>
    have hcfg := hex.configured waiting running
    refine .decided decides (took.near.phase.trans running) (fun henough _ => .inr ?_)
      (fun hk => by cases hk) (fun needs near => ⟨fun _ _ => ?_, fun _ _ _ => ?_, fun kont hk => ?_⟩)
    · exact loggedIn_of_login hc hcfg hwf running waiting hsess verified remembered took henough
    · obtain ⟨t, hl⟩ := near.login
      obtain ⟨mt, hs, hsome, hnone⟩ := hcfg.took (w := w) took
      refine ⟨mt, hs, ?_, ?_⟩
      · rw [hl]
        exact hsome
      · rw [hl]
        exact hnone
    · exact ⟨[], w, e, _, h, lastLogin_self _, ⟨c, _, hc, verified⟩⟩
    · rw [near.phase] at hk
      exact absurd ((took.near.phase.trans running).symm.trans hk) (by simp)
  | code running waiting awaiting required checked _ decides =>
    refine .decided decides running (fun _ _ => .inr ?_) (fun hk => by cases hk) (fun needs _ => ?_)
    · exact loggedIn_of_code hc hex running waiting awaiting required checked
    · cases needs.1
  | approved running waiting decides =>
    refine .decided decides running (fun _ _ => .inl approved_self) (fun hk => by cases hk)
      (fun needs _ => ?_)
    cases needs.1
  | switched running waiting switches near decides =>
    obtain ⟨t, hl⟩ := near.login
    refine .decided decides (near.phase.trans running) (fun _ hk => absurd rfl hk) (fun _ => ?_)
      (fun needs _ => ?_)
    · rw [hl]
      exact switches.union
    · have hsw := needs.2.2
      rw [hl] at hsw
      cases hsw
  | again running authorized _ near _ =>
    refine .of_authorized (near.authorized.trans authorized) ?_
    rw [near.phase]
    simp [Conn.switched, running]
  | waives _ authorized phase near =>
    refine .of_authorized (near.authorized.trans authorized) ?_
    rw [near.phase]
    rcases phase with h | h <;> simp [h]
  | @connected kont _ _ running same =>
    obtain ⟨o, hl⟩ := @grant_login b e kont w.shared (c.clear e).connected
    have hauth : c'.login.authorized = true := by
      rw [same]
      exact congrArg Login.authorized hl
    refine .of_authorized hauth ?_
    rcases running with h | h <;> simp [h]

end Explained

/-! ## Runs -/

section Runs

variable {k : Crypto} {b : Build} {h : History} {w w' : World} {ev : Event}

/-- The connection before and after the step that authorizes it. -/
theorem authorizes_turn {i : Nat} (hwf : w.Wf) (hstep : World.step k b w ev = some w')
    (hi : ¬AuthorizedAt w i) (hi' : AuthorizedAt w' i) :
    ∃ e cev c c' sh', ev = .conn i e cev ∧ w.conns[i]? = some c ∧ c.login.authorized = false ∧
      w'.conns[i]? = some c' ∧ c'.login.authorized = true ∧ w'.shared = sh' ∧
      Turn k b e w.shared (c.clear e) cev sh' c' := by
  obtain ⟨c', hat, hauth⟩ := hi'
  have hc' := hat
  have hold : w.conns[i]? ≠ some c' := fun hc => hi ⟨c', hc, hauth⟩
  cases World.steps_of_step hwf hstep with
  | start m =>
    rcases World.getElem?_concat hc' with ⟨-, rfl⟩ | hc'
    · cases hauth
    · exact absurd hc' hold
  | @conn j e cev c c₁ sh' hc turn =>
    rcases getElem?_set_eq_some hc' with ⟨rfl, rfl⟩ | ⟨-, hc'⟩
    · refine ⟨e, cev, c, c', sh', rfl, hc, ?_, hat, hauth, rfl, turn⟩
      cases hun : c.login.authorized with
      | false => rfl
      | true => exact absurd ⟨c, hc, hun⟩ hi
    · exact absurd hc' hold
  | insertSwitchSidesUuid now id uuid => exact absurd hc' hold
  | updateTemporaryPassword value => exact absurd hc' hold

/-- A uuid that is still stored has authorized nobody in this step. -/
theorem not_switchAuthorizes {id : String} {v : Nat × Bytes} (hwf : w.Wf)
    (hstep : World.step k b w ev = some w') (hv : w'.shared.switchSidesUuid id = some v) :
    ¬SwitchAuthorizes k b (w, ev) id := by
  rintro ⟨j, e, r, lr, hev, hlr, rfl, hj, w'', hstep', hj'⟩
  obtain rfl : w' = w'' := Option.some.inj (hstep.symm.trans hstep')
  obtain ⟨e', cev, c, c', sh', hev', hc, hun, -, hauth, rfl, turn⟩ :=
    authorizes_turn hwf hstep hj hj'
  obtain rfl : cev = .recv (.switchSidesResponse r) := by
    have := hev'.symm.trans hev
    cases this
    rfl
  obtain ⟨lr', hlr', hnone, -⟩ := turn.switch_taken hun hauth
  rw [hlr] at hlr'
  cases hlr'
  rw [hnone] at hv
  cases hv

theorem Accounts.start (hi : World.Init w) : Accounts k b [] w where
  conns i c hc := by
    rw [hi.1] at hc
    cases hc
  sessions key s hs := by
    rw [hi.2.1] at hs
    cases hs
  uuids id t uuid hu := by
    rw [hi.2.2.1] at hu
    cases hu

theorem Explained.start (m : Meta) :
    Explained k ((w, .start m) :: h) w.conns.length (Conn.start w.conns.length m) where
  configured _ _ :=
    ⟨m, ⟨_, List.mem_cons_self .., rfl, rfl⟩, fun _ ht => ht, fun hn => .inl hn⟩
  awaiting _ _ haw := (nomatch haw)
  connecting _ hk := (nomatch hk)

/-- The session of a connection that verified a code is marked by the history. -/
theorem Accounts.sessions_turn {i : Nat} {e : Env} {cev : ConnEvent} {c c' : Conn} {sh' : Shared}
    (ha : Accounts k b h w) (hc : w.conns[i]? = some c)
    (ht : Turn k b e w.shared (c.clear e) cev sh' c') {key : SessionKey} {s : Session}
    (hs : sh'.sessions key = some s) (htfa : s.tfa = true) :
    Marked k ((w, .conn i e cev) :: h) key := by
  cases ht.shares with
  | nothing calm =>
    rcases calm.sessions key s hs with hs | hf
    · exact (ha.sessions key s hs htfa).cons
    · exact hf.elim
  | password _ _ moves =>
    rcases moves.sessions key s hs with hs | ⟨-, -, hf⟩
    · exact (ha.sessions key s hs htfa).cons
    · exact absurd (htfa.symm.trans hf) (by simp)
  | @code tfa totp _ _ awaiting required checked moves =>
    rcases moves.sessions key s hs with hs | ⟨rfl, -⟩
    · exact (ha.sessions key s hs htfa).cons
    · exact ⟨_, List.mem_cons_self .., i, totp, e, tfa, c, rfl, hc, awaiting, rfl, checked⟩

theorem Accounts.step (hwf : w.Wf) (ha : Accounts k b h w) (hstep : World.step k b w ev = some w') :
    Accounts k b ((w, ev) :: h) w' := by
  have hswitch : ∀ {id v}, w'.shared.switchSidesUuid id = some v → ¬SwitchAuthorizes k b (w, ev) id :=
    not_switchAuthorizes hwf hstep
  cases World.steps_of_step hwf hstep with
  | start m =>
    refine ⟨fun i c hc => ?_, fun key s hs htfa => (ha.sessions key s hs htfa).cons,
      fun id t uuid hu => (ha.uuids id t uuid hu).cons (hswitch hu)⟩
    rcases World.getElem?_concat hc with ⟨rfl, rfl⟩ | hc
    · exact .start m
    · exact (ha.conns i c hc).other fun e ev h' => (nomatch h')
  | @conn j e cev c c' sh' hc turn =>
    refine ⟨fun i c₁ hc₁ => ?_, fun key s hs htfa => ha.sessions_turn hc turn hs htfa,
      fun id t uuid hu => (ha.uuids id t uuid (turn.shares.uuids hu)).cons (hswitch hu)⟩
    rcases getElem?_set_eq_some hc₁ with ⟨rfl, rfl⟩ | ⟨hne, hc₁⟩
    · exact (ha.conns i c hc).turn (hwf i c hc) hc ha.sessions turn
    · refine (ha.conns i c₁ hc₁).other fun e' ev' h' => ?_
      cases h'
      exact hne rfl
  | insertSwitchSidesUuid now id uuid =>
    refine ⟨fun i c hc => (ha.conns i c hc).other fun e ev h' => (nomatch h'),
      fun key s hs htfa => (ha.sessions key s hs htfa).cons, fun id' t uuid' hu => ?_⟩
    by_cases hid : id' = id
    · subst hid
      simp only [Shared.insertSwitchSidesUuid, Function.update_self, Option.some.injEq,
        Prod.mk.injEq] at hu
      obtain ⟨rfl, rfl⟩ := hu
      exact ⟨[], w, h, rfl, fun _ hp => (nomatch hp)⟩
    · refine (ha.uuids id' t uuid' ?_).cons (hswitch hu)
      simpa [Shared.insertSwitchSidesUuid, Function.update_of_ne hid] using hu
  | updateTemporaryPassword value =>
    exact ⟨fun i c hc => (ha.conns i c hc).other fun e ev h' => (nomatch h'),
      fun key s hs htfa => (ha.sessions key s hs htfa).cons,
      fun id t uuid hu => (ha.uuids id t uuid hu).cons (hswitch hu)⟩

theorem accounts_of_exec (hx : Exec World.Init (World.step k b) h w) : Accounts k b h w :=
  hx.induct (I := Accounts k b) (fun _ hi => .start hi) fun _ _ _ _ hx ha hstep =>
    ha.step (World.wf_of_exec hx) hstep

/-- In every run, whatever messages, clock readings and other connections there are, a connection is
authorized only because the connection manager consented, because sides were switched with the uuid
this side had stored for that, or by a password that is right together with the second factor. -/
theorem authorized_soundly {i : Nat} (hx : Exec World.Init (World.step k b) ((w, ev) :: h) w')
    (hi : ¬AuthorizedAt w i) (hi' : AuthorizedAt w' i) :
    Approved i ((w, ev) :: h) ∨ SwitchedSides k b i ((w, ev) :: h) ∨ LoggedIn k i ((w, ev) :: h) := by
  cases hx with
  | snoc hx hstep =>
    have hwf := World.wf_of_exec hx
    have ha := accounts_of_exec hx
    obtain ⟨e, cev, c, c', sh', rfl, hc, hun, -, hauth, -, turn⟩ := authorizes_turn hwf hstep hi hi'
    have hex := ha.conns i c hc
    cases turn.enters hun hauth with
    | login running verified remembered took decides =>
      refine .inr (.inr (loggedIn_of_login hc (hex.configured hun running) (hwf i c hc) running hun
        ha.sessions verified remembered took ?_))
      exact decides.enough (took.near.authorized.trans hun) hauth
    | code running awaiting required checked _ decides =>
      exact .inr (.inr (loggedIn_of_code hc hex running hun awaiting required checked))
    | approved _ _ => exact .inl approved_self
    | @switched r _ _ _ _ _ _ switches _ _ =>
      obtain ⟨t, hst, hlt⟩ := switches.stored
      exact .inr (.inl ⟨w, e, r, _, t, h, rfl, switches.request, hst, hlt, ha.uuids _ _ _ hst⟩)
    | connected phase _ =>
      rcases hex.connecting _ phase with happ | hlog
      · exact .inl (happ.cons fun e' ev' h' => by cases h'; rfl)
      · exact .inr (.inr (hlog.cons fun hl => (isLogin_iff.1 hl).2))

end Runs

/-- A hash function and a clock that nobody asks. -/
def Crypto.unused : Crypto where
  sha256 _ := []
  decodePermanentPasswordH1 _ := none
  decodePresetPasswordH1 _ := none
  localStorageUsable _ _ := false
  presetStorageUsable _ _ := false
  checkCode _ _ _ := none

theorem authorized_soundly_by_consent :
    ∃ w w' h, Exec World.Init (World.step .unused .linux)
        ((w, .conn 0 { freshPassword := "3m7tdw" } .authorize) :: h) w' ∧
      ¬AuthorizedAt w 0 ∧ AuthorizedAt w' 0 ∧
      (Approved 0 ((w, .conn 0 { freshPassword := "3m7tdw" } .authorize) :: h) ∨
        SwitchedSides .unused .linux 0 ((w, .conn 0 { freshPassword := "3m7tdw" } .authorize) :: h) ∨
        LoggedIn .unused 0 ((w, .conn 0 { freshPassword := "3m7tdw" } .authorize) :: h)) := by
  have hx : Exec World.Init (World.step .unused .linux) [(World.idle "8k2xq4", .start .plain)] _ :=
    .snoc (.start (World.init_idle "8k2xq4")) rfl
  have hi : ¬AuthorizedAt ⟨(World.idle "8k2xq4").shared, [Conn.start 0 .plain]⟩ 0 := by
    rintro ⟨c, hc, hauth⟩
    cases hc
    cases hauth
  have hx' := hx.snoc (e := .conn 0 { freshPassword := "3m7tdw" } .authorize) rfl
  exact ⟨_, _, _, hx', hi, ⟨_, rfl, rfl⟩, authorized_soundly hx' hi ⟨_, rfl, rfl⟩⟩

end FontisRemote.Connection
