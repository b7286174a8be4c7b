import FontisRemote.Connection.Guards
import FontisRemote.Connection.World

/-!
# How a connection is let in

What the handlers of a login request, a second factor and a switch of sides can come to, said once for
each: which fields of the connection differ afterwards and what has been shared. `Near` is a
connection up to the parts no statement about logging in reads. `Moves` is what happens to the shared
tables: entries go away, and the only ones that come are those a predicate allows. `Decides` is
`send_logon_response_and_keep_alive`.
-/

namespace FontisRemote.Connection

open FontisRemote.Lib FontisRemote.Login

/-! ## What happens to the shared tables -/

/-- From `sh` to `sh'` sessions and switch-sides ids are only taken away, but for the sessions `new`
allows, and the temporary password is kept or replaced by `fresh`. -/
structure Moves (new : SessionKey → Session → Prop) (fresh : String) (sh sh' : Shared) : Prop where
  sessions : ∀ key s, sh'.sessions key = some s → sh.sessions key = some s ∨ new key s
  uuids : ∀ id v, sh'.switchSidesUuid id = some v → sh.switchSidesUuid id = some v
  password : sh'.temporaryPassword = sh.temporaryPassword ∨ sh'.temporaryPassword = fresh

/-- Nothing new is shared. -/
abbrev Calm (fresh : String) (sh sh' : Shared) : Prop := Moves (fun _ _ => False) fresh sh sh'

namespace Moves

variable {new : SessionKey → Session → Prop} {fresh : String} {sh sh₁ sh₂ : Shared}

theorem refl (sh : Shared) : Moves new fresh sh sh :=
  ⟨fun _ _ h => .inl h, fun _ _ h => h, .inl rfl⟩

theorem trans (h1 : Moves new fresh sh sh₁) (h2 : Moves new fresh sh₁ sh₂) :
    Moves new fresh sh sh₂ where
  sessions key s h := by
    rcases h2.sessions key s h with h | h
    · exact h1.sessions key s h
    · exact .inr h
  uuids id v h := h1.uuids id v (h2.uuids id v h)
  password := by
    rcases h2.password with h | h
    · exact h ▸ h1.password
    · exact .inr h

theorem mono {new' : SessionKey → Session → Prop} (h : Moves new fresh sh sh₁)
    (hn : ∀ key s, new key s → new' key s) : Moves new' fresh sh sh₁ :=
  ⟨fun key s hs => (h.sessions key s hs).imp_right (hn key s), h.uuids, h.password⟩

theorem of_calm (h : Calm fresh sh sh₁) : Moves new fresh sh sh₁ := h.mono fun _ _ h => h.elim

/-- The tables are the same. -/
theorem of_eq (hs : sh₁.sessions = sh.sessions) (hu : sh₁.switchSidesUuid = sh.switchSidesUuid)
    (hp : sh₁.temporaryPassword = sh.temporaryPassword ∨ sh₁.temporaryPassword = fresh) :
    Moves new fresh sh sh₁ :=
  ⟨fun _ _ h => .inl (hs ▸ h), fun _ _ h => hu ▸ h, hp⟩

end Moves

namespace Shared

variable {fresh : String} (sh : Shared)

theorem retainSessions_some {now : Nat} {key : SessionKey} {s : Session}
    (h : (sh.retainSessions now).sessions key = some s) :
    sh.sessions key = some s ∧ sh.Live now s := by
  simpa [retainSessions, Option.filter_eq_some_iff] using h

theorem calm_retainSessions (now : Nat) : Calm fresh sh (sh.retainSessions now) where
  sessions _ _ h := .inl (sh.retainSessions_some h).1
  uuids _ _ h := h
  password := .inl rfl

theorem calm_checkRemoveSession (id : Nat) (key : SessionKey) :
    Calm fresh sh (sh.checkRemoveSession id key) where
  sessions key' s h := by
    unfold checkRemoveSession at h
    dsimp only at h
    split_ifs at h
    · by_cases hk : key' = key
      · subst hk
        simp at h
      · exact .inl (by simpa [Function.update_of_ne hk] using h)
    · exact .inl h
  uuids id v h := by
    unfold checkRemoveSession at h
    dsimp only at h
    split_ifs at h <;> exact h
  password := by
    unfold checkRemoveSession
    dsimp only
    split_ifs <;> exact .inl rfl

theorem calm_touch (now : Nat) (cell : Option Nat) : Calm fresh sh (sh.touch now cell) := by
  unfold touch
  split <;> exact .of_eq rfl rfl (.inl rfl)

theorem calm_updateFailure (idx : FailureIdx) (ip : Address) (c : Checked) (remove : Bool) :
    Calm fresh sh (sh.updateFailure idx ip c remove) :=
  .of_eq rfl rfl (.inl rfl)

theorem calm_checkUpdateTemporaryPassword (enabled success : Bool) :
    Calm fresh sh (sh.checkUpdateTemporaryPassword enabled success fresh) := by
  refine .of_eq rfl rfl ?_
  unfold checkUpdateTemporaryPassword Login.checkUpdateTemporaryPassword
  dsimp only
  split_ifs <;> simp

/-- The uuid a switch-sides response takes was stored and not expired, and it is gone. -/
theorem takeSwitchSidesUuid_some {now : Nat} {id : String} {uuid : Bytes}
    (h : (sh.takeSwitchSidesUuid now id).1 = some uuid) :
    ∃ t, sh.switchSidesUuid id = some (t, uuid) ∧ now - t < switchSidesUuidTtl := by
  simp only [takeSwitchSidesUuid, Option.map_eq_some_iff, Option.filter_eq_some_iff] at h
  obtain ⟨⟨t, u⟩, ⟨hs, hlt⟩, rfl⟩ := h
  exact ⟨t, hs, by simpa using hlt⟩

theorem takeSwitchSidesUuid_self (now : Nat) (id : String) :
    (sh.takeSwitchSidesUuid now id).2.switchSidesUuid id = none := by
  simp [takeSwitchSidesUuid]

theorem calm_takeSwitchSidesUuid (now : Nat) (id : String) :
    Calm fresh sh (sh.takeSwitchSidesUuid now id).2 where
  sessions _ _ h := .inl h
  uuids id' v h := by
    by_cases hk : id' = id
    · subst hk
      simp [takeSwitchSidesUuid] at h
    · simp only [takeSwitchSidesUuid, Function.update_of_ne hk, Option.filter_eq_some_iff] at h
      exact h.1
  password := .inl rfl

/-- A match of the temporary password puts one session in the table. -/
theorem moves_updateOrInsertSession (now : Nat) (key : SessionKey) (password : String) (tfa : Bool) :
    Moves (fun key' s => key' = key ∧ s.randomPassword = password ∧ s.tfa = tfa) fresh sh
      (sh.updateOrInsertSession now key password tfa) where
  sessions key' s h := by
    by_cases hk : key' = key
    · subst hk
      unfold updateOrInsertSession at h
      split at h
      · simp only [Function.update_self, Option.some.injEq] at h
        exact .inr (h ▸ ⟨rfl, rfl, rfl⟩)
      · simp only [insertSession, Function.update_self, Option.some.injEq] at h
        exact .inr (h ▸ ⟨rfl, rfl, rfl⟩)
    · unfold updateOrInsertSession at h
      split at h
      · exact .inl (by simpa [Function.update_of_ne hk] using h)
      · exact .inl (by simpa [insertSession, Function.update_of_ne hk] using h)
  uuids id v h := by
    unfold updateOrInsertSession at h
    split at h <;> exact h
  password := by
    unfold updateOrInsertSession
    split <;> exact .inl rfl

/-- A code that is right marks one session, which keeps its password or has none. -/
theorem moves_setSession2fa (now : Nat) (key : SessionKey) :
    Moves (fun key' s => key' = key ∧ (s.randomPassword = "" ∨
      ∃ s₀, sh.sessions key = some s₀ ∧ s₀.randomPassword = s.randomPassword)) fresh sh
      (sh.setSession2fa now key) where
  sessions key' s h := by
    by_cases hk : key' = key
    · subst hk
      unfold setSession2fa at h
      split at h
      · rename_i s₀ hs₀
        simp only [Function.update_self, Option.some.injEq] at h
        exact .inr (h ▸ ⟨rfl, .inr ⟨s₀, hs₀, rfl⟩⟩)
      · simp only [insertSession, Function.update_self, Option.some.injEq] at h
        exact .inr (h ▸ ⟨rfl, .inl rfl⟩)
    · unfold setSession2fa at h
      split at h
      · exact .inl (by simpa [Function.update_of_ne hk] using h)
      · exact .inl (by simpa [insertSession, Function.update_of_ne hk] using h)
  uuids id v h := by
    unfold setSession2fa at h
    split at h <;> exact h
  password := by
    unfold setSession2fa
    split <;> exact .inl rfl

theorem calm_authorize (e : Env) (c : Conn) : Calm e.freshPassword sh (sh.authorize e c) :=
  .of_eq rfl rfl (.inr rfl)

end Shared

/-! ## Connections that differ in nothing that counts -/

/-- Nothing but the user token of a terminal and the unguarded part of the desk differs. -/
structure Near (c c' : Conn) : Prop where
  login : ∃ token, c'.login = { c.login with terminalUserToken := token }
  scope : c'.scope = c.scope
  guard : c'.desk.guard = c.desk.guard
  phase : c'.phase = c.phase
  id : c'.id = c.id

namespace Near

variable {c c' c₁ : Conn}

theorem refl (c : Conn) : Near c c := ⟨⟨_, rfl⟩, rfl, rfl, rfl, rfl⟩

theorem trans (h1 : Near c c') (h2 : Near c' c₁) : Near c c₁ := by
  obtain ⟨t1, ht1⟩ := h1.login
  obtain ⟨t2, ht2⟩ := h2.login
  exact ⟨⟨t2, by rw [ht2, ht1]⟩, h2.scope.trans h1.scope, h2.guard.trans h1.guard,
    h2.phase.trans h1.phase, h2.id.trans h1.id⟩

theorem onDesk (c : Conn) {f : Desk → Desk} (hf : (f c.desk).guard = c.desk.guard) :
    Near c (c.onDesk f) :=
  ⟨⟨_, rfl⟩, rfl, hf, rfl, rfl⟩

theorem send (c : Conn) (r : Reply) : Near c (c.send r) := .onDesk c rfl

theorem sendLoginError (c : Conn) (text : String) : Near c (c.sendLoginError text) := .send c _

theorem tryStartCm (c : Conn) (authorized : Bool) : Near c (c.tryStartCm authorized) := .onDesk c rfl

theorem afterLogon (k : Kont) (c : Conn) : Near c (afterLogon k c) := by
  cases k with
  | login => exact .tryStartCm c _
  | twoFactor tfa => exact .tryStartCm c _
  | authorize => exact .refl c
  | switchSides => exact .tryStartCm c _

theorem prepareTerminalLogin (b : Build) (e : Env) (c : Conn) :
    Near c (prepareTerminalLogin b e c).1 := by
  unfold Connection.prepareTerminalLogin
  dsimp only
  split
  · exact .refl c
  split
  · exact .sendLoginError c _
  split
  · exact .sendLoginError c _
  split
  · exact .sendLoginError c _
  split
  · split
    · exact ⟨⟨_, rfl⟩, rfl, rfl, rfl, rfl⟩
    · exact ⟨⟨_, rfl⟩, rfl, rfl, rfl, rfl⟩
  · exact ⟨⟨_, rfl⟩, rfl, rfl, rfl, rfl⟩

theorem authorized (h : Near c c') : c'.login.authorized = c.login.authorized := by
  obtain ⟨t, ht⟩ := h.login
  rw [ht]

end Near

/-- The connection has ended. -/
structure Gone (c c' : Conn) : Prop where
  phase : c'.phase = .ended
  authorized : c'.login.authorized = c.login.authorized
  subs : c'.desk.subs = fun _ => false
  id : c'.id = c.id

theorem gone_endConn (b : Build) (sh : Shared) (c : Conn) : Gone c (endConn b sh c).2 :=
  ⟨rfl, rfl, rfl, rfl⟩

theorem calm_endConn {fresh : String} (b : Build) (sh : Shared) (c : Conn) :
    Calm fresh sh (endConn b sh c).1 :=
  .of_eq rfl rfl (.inl rfl)

/-! ## A login request is taken in -/

def Login.asked (k : Crypto) (e : Env) (lr : LoginRequest) (m : Option Matched) (l : Login) : Login :=
  { l.takeRequest e lr with
    loginScope := some (loginScopeDigest k lr)
    awaiting2fa := false
    matched := m }

/-- The scope a request asks for. -/
def SessionScope.requested (lr : LoginRequest) (sc : SessionScope) : SessionScope :=
  match lr.union with
  | some (.fileTransfer dir showHidden) =>
    { sc.resetForLogin with fileTransfer := some (dir.1, showHidden) }
  | some .viewCamera => { sc.resetForLogin with viewCamera := true }
  | some (.terminal serviceId) =>
    { sc.resetForLogin with terminal := true, terminalServiceId := serviceId.1 }
  | some (.portForward pf) =>
    { sc.resetForLogin with portForwardAddress := (normalizePortForwardTarget pf).1 }
  | none => sc.resetForLogin

def Conn.asked (k : Crypto) (e : Env) (lr : LoginRequest) (m : Option Matched) (c : Conn) : Conn :=
  { c with login := c.login.asked k e lr m, scope := c.scope.requested lr }

/-- A request is taken in: its scope is that of the first one, if there was one. -/
structure Took (k : Crypto) (e : Env) (lr : LoginRequest) (m : Option Matched) (c c' : Conn) :
    Prop where
  latched : c.login.loginScope = none ∨ c.login.loginScope = some (loginScopeDigest k lr)
  near : Near (c.asked k e lr m) c'

/-- The password a login offers is right, and what it is. -/
def Verified (k : Crypto) (e : Env) (sh : Shared) (l : Login) : Matched → Prop
  | .temporary v =>
    e.temporaryEnabled = true ∧ sh.temporaryPassword = v ∧ validatePasswordPlain k l v = true
  | .remembered v =>
    ∃ s, sh.sessions l.lr.sessionKey = some s ∧ sh.Live e.now s ∧ s.randomPassword = v ∧
      l.lr.password ≠ [] ∧ validatePasswordPlain k l v = true
  | .permanent =>
    (e.permanentEnabled = true ∨ e.allowLogonScreenPassword = true) ∧ e.localStorage.1 ≠ "" ∧
      k.localStorageUsable e.localStorage.1 e.localStorage.2 = true ∧
      validatePasswordStorage k l e.localStorage.1 = true
  | .preset =>
    (e.permanentEnabled = true ∨ e.allowLogonScreenPassword = true) ∧ e.localStorage.1 = "" ∧
      k.presetStorageUsable e.presetStorage.1 e.presetStorage.2 = true ∧
      validatePresetPasswordStorage k l e.presetStorage.1 e.presetStorage.2 = true

/-- The session a match leaves behind: a temporary password is remembered. -/
def Remembers (lr : LoginRequest) (m : Matched) (key : SessionKey) (s : Session) : Prop :=
  key = lr.sessionKey ∧ m = .temporary s.randomPassword ∧ s.tfa = false

/-- What is shared once a request's password has been found right. -/
structure Remembered (e : Env) (lr : LoginRequest) (m : Matched) (sh sh₁ : Shared) : Prop where
  moves : Moves (Remembers lr m) e.freshPassword sh sh₁
  recent : ∀ s, sh₁.sessions lr.sessionKey = some s → s.tfa = true →
    sh.sessions lr.sessionKey = some s ∧ sh.Live e.now s

section Passwords

variable {k : Crypto} {e : Env} {sh sh₁ : Shared} {l : Login} {m : Matched}

theorem Verified.of_retain (h : Verified k e (sh.retainSessions e.now) l m) : Verified k e sh l m := by
  cases m with
  | temporary v => exact h
  | remembered v =>
    obtain ⟨s, hs, -, hp⟩ := h
    obtain ⟨hs, hl⟩ := sh.retainSessions_some hs
    exact ⟨s, hs, hl, hp⟩
  | permanent => exact h
  | preset => exact h

theorem recentSessionPassword_verified
    (h : recentSessionPassword k (sh.retainSessions e.now) l = some m) : Verified k e sh l m := by
  unfold recentSessionPassword at h
  split at h
  · rename_i s hs
    split_ifs at h with hp
    obtain ⟨hs, hl⟩ := sh.retainSessions_some hs
    cases h
    exact ⟨s, hs, hl, rfl, hp.1, hp.2⟩
  · cases h

theorem validatePermanentPassword_verified
    (h : validatePermanentPassword k e e.allowLogonScreenPassword l = some m) :
    Verified k e sh l m := by
  unfold validatePermanentPassword at h
  split_ifs at h with hen hst hok hok
  · obtain ⟨hu, hv⟩ := Bool.and_eq_true _ _ |>.mp hok
    cases h
    exact ⟨by simpa using hen, hst, hu, hv⟩
  · obtain ⟨hu, hv⟩ := Bool.and_eq_true _ _ |>.mp hok
    cases h
    exact ⟨by simpa using hen, by simpa using hst, hu, hv⟩

theorem validatePassword_verified
    (h : validatePassword k e e.allowLogonScreenPassword sh l = (some m, sh₁)) :
    Verified k e sh l m ∧ Moves (Remembers l.lr m) e.freshPassword sh sh₁ := by
  unfold validatePassword at h
  split_ifs at h with hv
  · obtain ⟨hen, hp⟩ := Bool.and_eq_true _ _ |>.mp hv
    cases h
    refine ⟨⟨hen, rfl, hp⟩, ?_⟩
    have hnew := @Shared.moves_updateOrInsertSession e.freshPassword sh e.now l.lr.sessionKey
      sh.temporaryPassword false
    refine (hnew.mono ?_).trans (.of_calm (Shared.calm_checkUpdateTemporaryPassword _ _ _))
    rintro key s ⟨rfl, hpw, htfa⟩
    exact ⟨rfl, by rw [hpw], htfa⟩
  · obtain ⟨hm, rfl⟩ := Prod.mk.inj h
    exact ⟨validatePermanentPassword_verified hm, .refl _⟩

theorem validatePassword_none
    (h : validatePassword k e e.allowLogonScreenPassword sh l = (none, sh₁)) : sh₁ = sh := by
  unfold validatePassword at h
  split_ifs at h
  · cases h
  · exact (Prod.mk.inj h).2.symm

/-- A session with the second factor was there, and live, if only live sessions are left. -/
theorem Remembered.of_moves {lr : LoginRequest}
    (h : Moves (Remembers lr m) e.freshPassword (sh.retainSessions e.now) sh₁) :
    Remembered e lr m sh sh₁ where
  moves := (Moves.of_calm (sh.calm_retainSessions e.now)).trans h
  recent s hs htfa := by
    rcases h.sessions _ s hs with hs | ⟨-, -, hf⟩
    · exact sh.retainSessions_some hs
    · rw [htfa] at hf
      cases hf

end Passwords

/-! ## The handler of a login request -/

section Requests

variable {k : Crypto} {b : Build} {e : Env} {sh : Shared} {c : Conn}

theorem askConnectionManager_near (noAccess : Bool) :
    ∃ g c', askConnectionManager b e noAccess sh c = ⟨sh, c', g⟩ ∧ Near c c' ∧ g ≠ .suspended := by
  unfold askConnectionManager
  have hnear : Near c (if shouldUseTerminalOsLoginScope b c.scope.terminal
      c.login.lr.osLogin.username then prepareTerminalLogin b e c else (c, true)).1 := by
    split
    · exact .prepareTerminalLogin b e c
    · exact .refl c
  dsimp only
  split
  · rename_i c' hc'
    rw [hc'] at hnear
    exact ⟨_, _, rfl, hnear, by simp⟩
  · rename_i c' hc'
    rw [hc'] at hnear
    have hcm : Near c (c'.tryStartCm false) := hnear.trans (.tryStartCm c' false)
    split
    · exact ⟨_, _, rfl, hcm.trans (.sendLoginError _ _), by simp⟩
    · exact ⟨_, _, rfl, hcm, by simp⟩

/-- How a request that asks for what it may have is decided. -/
theorem authenticate_cases :
    (∃ sh' c' g, authenticate k b e sh c = ⟨sh', c', g⟩ ∧ Near c c' ∧
      Calm e.freshPassword sh sh' ∧ g ≠ .suspended) ∨
    (∃ m sh₁, Verified k e sh c.login m ∧ Remembered e c.login.lr m sh sh₁ ∧
      authenticate k b e sh c =
        logon b e .login sh₁ { c with login := { c.login with matched := some m } }) := by
  unfold authenticate
  split
  · obtain ⟨g, c', ho, hn, hg⟩ := @askConnectionManager_near b e sh c true
    exact .inl ⟨sh, c', g, ho, hn, .refl _, hg⟩
  · dsimp only
    split
    · rename_i m hm
      exact .inr ⟨m, _, recentSessionPassword_verified hm, .of_moves (.refl _), rfl⟩
    · split
      · obtain ⟨g, c', ho, hn, hg⟩ := @askConnectionManager_near b e (sh.retainSessions e.now) c false
        exact .inl ⟨_, c', g, ho, hn, sh.calm_retainSessions e.now, hg⟩
      · unfold tryPassword
        dsimp only
        split
        · exact .inl ⟨_, _, _, rfl, .sendLoginError c _, sh.calm_retainSessions e.now, by simp⟩
        · split
          · rename_i m sh₁ hv
            obtain ⟨hver, hmoves⟩ := validatePassword_verified hv
            exact .inr ⟨m, _, hver.of_retain,
              .of_moves (hmoves.trans (.of_calm (Shared.calm_updateFailure _ _ _ _ _))), rfl⟩
          · rename_i sh₁ hv
            rw [validatePassword_none hv]
            refine .inl ⟨_, _, _, rfl, (Near.sendLoginError c _).trans (.tryStartCm _ _), ?_, by simp⟩
            exact (sh.calm_retainSessions e.now).trans
              ((Shared.calm_updateFailure _ _ _ _ _).trans
                (Shared.calm_checkUpdateTemporaryPassword _ _ _))

/-- The check of an id touches nothing but the failures. -/
theorem checkIdWhitelist_near : ∃ f c' ok,
    checkIdWhitelist e sh c = ({ sh with loginFailures := f }, c', ok) ∧ Near c c' := by
  unfold checkIdWhitelist
  split
  · exact ⟨sh.loginFailures, c, true, rfl, .refl c⟩
  · dsimp only
    split
    · exact ⟨_, _, _, rfl, .sendLoginError c _⟩
    · split
      · exact ⟨_, _, _, rfl, .refl c⟩
      · exact ⟨_, _, _, rfl, .sendLoginError c _⟩

/-- A kind of session that is permitted is set in the scope, which was reset before. -/
theorem requestScope_ok {c' : Conn} {sc : SessionScope} (h : requestScope b e c = .ok c')
    (hsc : c.scope = sc.resetForLogin) :
    Near { c with scope := sc.requested c.login.lr } c' := by
  unfold requestScope at h
  unfold SessionScope.requested
  rw [← hsc]
  cases hu : c.login.lr.union with
  | none =>
    simp only [hu] at h
    split_ifs at h
    cases h
    exact ⟨⟨_, rfl⟩, rfl, rfl, rfl, rfl⟩
  | some u =>
    cases u with
    | fileTransfer dir showHidden =>
      simp only [hu] at h
      split_ifs at h
      cases h
      exact ⟨⟨_, rfl⟩, rfl, rfl, rfl, rfl⟩
    | viewCamera =>
      simp only [hu] at h
      split_ifs at h
      cases h
      exact ⟨⟨_, rfl⟩, rfl, rfl, rfl, rfl⟩
    | terminal serviceId =>
      simp only [hu] at h
      split_ifs at h
      cases h
      exact ⟨⟨_, rfl⟩, rfl, rfl, rfl, rfl⟩
    | portForward pf =>
      simp only [hu] at h
      split_ifs at h
      cases h
      exact ⟨⟨_, rfl⟩, rfl, rfl, rfl, rfl⟩

theorem checkLoginScope_some {lr : LoginRequest} {c' : Conn} (h : checkLoginScope k lr c = some c') :
    (c.login.loginScope = none ∨ c.login.loginScope = some (loginScopeDigest k lr)) ∧
      c' = { c with login := { c.login with loginScope := some (loginScopeDigest k lr) } } := by
  unfold checkLoginScope at h
  split at h
  · rename_i initial hi
    split_ifs at h with heq
    have heq : initial = loginScopeDigest k lr := not_not.1 heq
    subst heq
    cases h
    refine ⟨.inr hi, ?_⟩
    rw [← hi]
  · rename_i hn
    cases h
    exact ⟨.inl hn, rfl⟩

/-- What a login request can come to: the connection closed, kept as it was but for the request
taken in, or on its way to being authorized with a password that is right. -/
theorem onLoginRequest_cases (lr : LoginRequest) :
    (∃ sh' c', onLoginRequest k b e lr sh c = ⟨sh', c', .close⟩ ∧
      c'.login.authorized = c.login.authorized ∧ c'.id = c.id ∧ Calm e.freshPassword sh sh') ∨
    (∃ sh' c', onLoginRequest k b e lr sh c = ⟨sh', c', .keep⟩ ∧ Took k e lr none c c' ∧
      Calm e.freshPassword sh sh') ∨
    (∃ m sh₁ c₁, Verified k e sh { c.login with lr := lr } m ∧ Remembered e lr m sh sh₁ ∧
      Took k e lr (some m) c c₁ ∧ onLoginRequest k b e lr sh c = logon b e .login sh₁ c₁) := by
  unfold onLoginRequest
  split
  · exact .inl ⟨_, _, rfl, rfl, rfl, .refl _⟩
  rename_i c₀ hc₀
  obtain ⟨hlatch, rfl⟩ := checkLoginScope_some hc₀
  dsimp only
  obtain ⟨f, c₂, ok, hid, hnear⟩ := @checkIdWhitelist_near e sh (Conn.resetSessionScopeForLogin { c with
      login := { ({ c.login with loginScope := some (loginScopeDigest k lr) } : Login).takeRequest e lr with
        awaiting2fa := false, matched := none } })
  rw [hid]
  have hcalm : Calm e.freshPassword sh { sh with loginFailures := f } := .of_eq rfl rfl (.inl rfl)
  obtain ⟨t, ht⟩ := hnear.login
  have hauth : c₂.login.authorized = c.login.authorized := by
    rw [ht]
    rfl
  have hid₂ : c₂.id = c.id := hnear.id
  cases ok with
  | false => exact .inl ⟨_, _, rfl, hauth, hid₂, hcalm⟩
  | true =>
    dsimp only
    split
    · exact .inl ⟨_, _, rfl, hauth, hid₂, hcalm⟩
    · rename_i c₃ hc₃
      have hlr : c₂.login.lr = lr := by
        rw [ht]
        rfl
      have hn₃ := requestScope_ok hc₃ hnear.scope
      have hasked : Near (c.asked k e lr none) c₃ := by
        refine Near.trans ?_ hn₃
        refine ⟨⟨t, ht⟩, ?_, hnear.guard, hnear.phase, hnear.id⟩
        rw [hlr]
        rfl
      split
      · exact .inl ⟨_, _, rfl, hasked.authorized, hasked.id, hcalm⟩
      split
      · exact .inl ⟨_, _, rfl, hasked.authorized, hasked.id, hcalm⟩
      obtain ⟨t₃, ht₃⟩ := hasked.login
      rcases @authenticate_cases k b e { sh with loginFailures := f } c₃ with ⟨sh', c', g, ho, hn, hc, hg⟩ |
          ⟨m, sh₁, hv, hr, ho⟩
      · rw [ho]
        cases g with
        | keep => exact .inr (.inl ⟨sh', c', rfl, ⟨hlatch, hasked.trans hn⟩, hcalm.trans hc⟩)
        | close =>
          have hn := hasked.trans hn
          exact .inl ⟨sh', c', rfl, hn.authorized, hn.id, hcalm.trans hc⟩
        | suspended => exact absurd rfl hg
      · refine .inr (.inr ⟨m, sh₁, _, ?_, ?_, ⟨hlatch, ?_⟩, ho⟩)
        · rw [ht₃] at hv
          exact hv
        · rw [ht₃] at hr
          exact ⟨⟨hr.moves.sessions, hr.moves.uuids, hr.moves.password⟩, hr.recent⟩
        · refine ⟨⟨t₃, ?_⟩, hasked.scope, hasked.guard, hasked.phase, hasked.id⟩
          rw [ht₃]
          rfl

end Requests

/-! ## The decision -/

section Decision

variable {b : Build} {e : Env} {kont : Kont} {sh : Shared} {c : Conn}

/-- A second factor is asked for first. -/
def Needs2fa (e : Env) (sh : Shared) (l : Login) : Prop :=
  l.require2fa.isSome = true ∧ recentSession2fa (sh.retainSessions e.now) l = false ∧
    l.fromSwitch = false

/-- The scope of a request that waits for no connect. -/
def SessionScope.opened (lr : LoginRequest) (sc : SessionScope) : SessionScope :=
  match lr.union with
  | some (.portForward _) => { sc with mux := some sc.portForwardAddress }
  | _ => sc

/-- The connection just authorized, with what its caller does after it. -/
def grant (b : Build) (e : Env) (kont : Kont) (sh : Shared) (c : Conn) : Conn :=
  afterLogon kont ((c.authorize sh).beginSession b e)

/-- What `send_logon_response_and_keep_alive` does to a connection that is not authorized. -/
inductive Decides (b : Build) (e : Env) (kont : Kont) (sh : Shared) (c : Conn) : Shared → Conn → Prop
  | second {c' : Conn} (needs : Needs2fa e sh c.login)
      (near : Near { c with login := { c.login with awaiting2fa := true } } c') :
      Decides b e kont sh c (sh.retainSessions e.now) c'
  | refused {sh' : Shared} {c' : Conn} (gone : Gone c c') (calm : Calm e.freshPassword sh sh') :
      Decides b e kont sh c sh' c'
  | waits {sh' : Shared} {c' : Conn} {pf : PortForward} (enough : ¬Needs2fa e sh c.login)
      (union : c.login.lr.union = some (.portForward pf)) (single : pf.multiplex = false)
      (near : Near { c with
        login := { c.login with awaiting2fa := false }
        scope := { c.scope with portForwardAddress := (normalizePortForwardTarget pf).1 }
        phase := .connecting kont } c') (calm : Calm e.freshPassword sh sh') :
      Decides b e kont sh c sh' c'
  | granted {sh₀ : Shared} {c₁ : Conn} (enough : ¬Needs2fa e sh c.login)
      (multiplex : ∀ pf, c.login.lr.union = some (.portForward pf) → pf.multiplex = true)
      (near : Near { c with
        login := { c.login with awaiting2fa := false }
        scope := c.scope.opened c.login.lr } c₁) (calm : Calm e.freshPassword sh sh₀) :
      Decides b e kont sh c (sh₀.authorize e c₁) (grant b e kont sh₀ c₁)

theorem beginSession_login (c : Conn) :
    ∃ o, (c.beginSession b e).login = { c.login with optionsInLogin := o } := by
  unfold Conn.beginSession
  dsimp only
  split
  · exact ⟨_, rfl⟩
  · split
    · exact ⟨_, rfl⟩
    · exact ⟨_, rfl⟩

/-- The scope stays, but that a terminal asked for without a service gets a new one. -/
theorem beginSession_scope (c : Conn) :
    ∃ id, (c.beginSession b e).scope = { c.scope with terminalServiceId := id } ∧
      (id = c.scope.terminalServiceId ∨
        c.scope.terminal = true ∧ c.scope.terminalServiceId = "" ∧ id = e.generatedServiceId) := by
  unfold Conn.beginSession
  dsimp only
  split
  · exact ⟨_, rfl, .inl rfl⟩
  · split
    · exact ⟨_, rfl, .inl rfl⟩
    · refine ⟨_, rfl, ?_⟩
      unfold terminalServiceOf
      split_ifs with ht hid
      · simp only [Bool.and_eq_true] at ht
        exact .inr ⟨ht.1.1.2, hid, rfl⟩
      · exact .inl rfl
      · exact .inl rfl

theorem beginSession_phase (c : Conn) : (c.beginSession b e).phase = c.phase := by
  unfold Conn.beginSession
  dsimp only
  split
  · rfl
  · split <;> rfl

theorem socket_of_not_isPortForward {sc : SessionScope} (h : sc.isPortForward = false) :
    sc.socket = none ∧ sc.mux = none := by
  simpa [SessionScope.isPortForward] using h

/-- Past the second factor the connection is refused, waits for a connect, or is authorized. -/
theorem sendLogonResponse_enough (hun : c.login.authorized = false) (hneed : ¬Needs2fa e sh c.login) :
    ∃ (sh₀ : Shared) (c₁ : Conn) (ok : Bool), Calm e.freshPassword sh sh₀ ∧
      Near { c with login := { c.login with awaiting2fa := false } } c₁ ∧
      sendLogonResponse b e sh c =
        if ok then
          match connectPortForwardIfNeeded c₁ with
          | (c, false) => ⟨sh₀, c, .suspended⟩
          | (c, true) => ⟨sh₀.authorize e c, (c.authorize sh₀).beginSession b e, .keep⟩
        else ⟨sh₀, c₁, .close⟩ := by
  unfold sendLogonResponse
  dsimp only
  rw [if_neg (by simp [hun]), if_neg]
  · have hnear := Near.prepareTerminalLogin b e
      { c with login := { c.login with awaiting2fa := false } }
    have hcalm : Calm e.freshPassword sh
        (if c.login.require2fa.isSome then sh.retainSessions e.now else sh) := by
      split
      · exact sh.calm_retainSessions e.now
      · exact .refl _
    cases hp : prepareTerminalLogin b e { c with login := { c.login with awaiting2fa := false } } with
    | mk c₁ ok =>
      rw [hp] at hnear
      refine ⟨_, c₁, ok, hcalm, hnear, ?_⟩
      cases ok <;> rfl
  · intro h
    simp only [Bool.and_eq_true, Bool.not_eq_true'] at h
    obtain ⟨⟨hreq, hrec⟩, hsw⟩ := h
    rw [if_pos hreq] at hrec
    exact hneed ⟨hreq, hrec, hsw⟩

theorem sendLogonResponse_second (hun : c.login.authorized = false) (hneed : Needs2fa e sh c.login) :
    sendLogonResponse b e sh c = ⟨sh.retainSessions e.now,
      ({ c with login := { c.login with awaiting2fa := true } } : Conn).sendLoginError "2FA Required",
      .keep⟩ := by
  obtain ⟨hreq, hrec, hsw⟩ := hneed
  unfold sendLogonResponse
  dsimp only
  rw [if_neg (by simp [hun]), if_pos hreq, if_pos (by simp [hreq, hrec, hsw])]

theorem afterHandler_keep {wait : Bool} {sh : Shared} {c : Conn} (h : c.scope.socket = none) :
    afterHandler b wait ⟨sh, c, .keep⟩ = (sh, c) := by
  simp [afterHandler, h]

theorem afterLogon_login (c : Conn) : (afterLogon kont c).login = c.login := by
  cases kont <;> rfl

theorem grant_login (sh : Shared) (c : Conn) :
    ∃ o, (grant b e kont sh c).login = { (c.authorize sh).login with optionsInLogin := o } := by
  obtain ⟨o, ho⟩ := beginSession_login (b := b) (e := e) (c.authorize sh)
  exact ⟨o, (afterLogon_login _).trans ho⟩

theorem grant_authorized (sh : Shared) (c : Conn) : (grant b e kont sh c).login.authorized = true := by
  obtain ⟨o, hgrant⟩ := @grant_login b e kont sh c
  rw [hgrant]
  rfl

theorem grant_scope (sh : Shared) (c : Conn) :
    ∃ id, (grant b e kont sh c).scope = { c.scope with terminalServiceId := id } ∧
      (id = c.scope.terminalServiceId ∨
        c.scope.terminal = true ∧ c.scope.terminalServiceId = "" ∧ id = e.generatedServiceId) := by
  obtain ⟨id, hsc, hid⟩ := beginSession_scope (b := b) (e := e) (c.authorize sh)
  refine ⟨id, ?_, hid⟩
  unfold grant
  rw [(Near.afterLogon kont _).scope, hsc]
  rfl

theorem grant_phase (sh : Shared) (c : Conn) : (grant b e kont sh c).phase = c.phase := by
  unfold grant
  rw [(Near.afterLogon kont _).phase, beginSession_phase]
  rfl

theorem connectPortForwardIfNeeded_cases (hpf : c.scope.isPortForward = false) :
    (∃ pf, c.login.lr.union = some (.portForward pf) ∧ pf.multiplex = false ∧
      connectPortForwardIfNeeded c = ({ c with scope := { c.scope with
        portForwardAddress := (normalizePortForwardTarget pf).1 } }, false)) ∨
    ((∀ pf, c.login.lr.union = some (.portForward pf) → pf.multiplex = true) ∧
      connectPortForwardIfNeeded c = ({ c with scope := c.scope.opened c.login.lr }, true)) := by
  unfold connectPortForwardIfNeeded SessionScope.opened
  rw [if_neg (by simp [hpf])]
  cases hu : c.login.lr.union with
  | none => exact .inr ⟨by simp, rfl⟩
  | some u =>
    cases u with
    | fileTransfer dir showHidden => exact .inr ⟨by simp, rfl⟩
    | viewCamera => exact .inr ⟨by simp, rfl⟩
    | terminal serviceId => exact .inr ⟨by simp, rfl⟩
    | portForward pf =>
      cases hm : pf.multiplex with
      | false => exact .inl ⟨pf, rfl, hm, by simp [hm]⟩
      | true =>
        refine .inr ⟨fun pf' h => ?_, by simp [hm]⟩
        cases h
        exact hm

theorem decides_logon (wait : Bool) (hun : c.login.authorized = false)
    (hpf : c.scope.isPortForward = false) :
    Decides b e kont sh c (afterHandler b wait (logon b e kont sh c)).1
      (afterHandler b wait (logon b e kont sh c)).2 := by
  obtain ⟨hsock, hmux⟩ := socket_of_not_isPortForward hpf
  unfold logon
  by_cases hneed : Needs2fa e sh c.login
  · rw [sendLogonResponse_second hun hneed]
    have hnear := (Near.sendLoginError { c with login := { c.login with awaiting2fa := true } }
      "2FA Required").trans (.afterLogon kont _)
    dsimp only
    rw [afterHandler_keep (by rw [hnear.scope]; exact hsock)]
    exact .second hneed hnear
  · obtain ⟨sh₀, c₁, ok, hcalm, hnear, ho⟩ := sendLogonResponse_enough (b := b) hun hneed
    rw [ho]
    cases ok with
    | false =>
      refine .refused ?_ (hcalm.trans (calm_endConn b sh₀ c₁))
      have hg := gone_endConn b sh₀ c₁
      exact ⟨hg.phase, hg.authorized.trans hnear.authorized, hg.subs, hg.id.trans hnear.id⟩
    | true =>
      obtain ⟨t, ht⟩ := hnear.login
      have hlr : c₁.login.lr = c.login.lr := by rw [ht]
      have hpf₁ : c₁.scope.isPortForward = false := by rw [hnear.scope]; exact hpf
      rw [if_pos rfl]
      rcases connectPortForwardIfNeeded_cases hpf₁ with ⟨pf, hu, hm, hconn⟩ | ⟨hm, hconn⟩
      · rw [hconn]
        refine .waits hneed (hlr ▸ hu) hm ⟨⟨t, ?_⟩, ?_, hnear.guard, rfl, hnear.id⟩ hcalm
        · exact ht
        · simp only [hnear.scope]
          rfl
      · rw [hconn]
        have hn₁ : Near { c with
            login := { c.login with awaiting2fa := false }
            scope := c.scope.opened c.login.lr } { c₁ with scope := c₁.scope.opened c₁.login.lr } :=
          ⟨⟨t, ht⟩, by simp only [hnear.scope, hlr], hnear.guard, hnear.phase, hnear.id⟩
        obtain ⟨id, hsc, -⟩ := @grant_scope b e kont sh₀
          { c₁ with scope := c₁.scope.opened c₁.login.lr }
        have hs : (grant b e kont sh₀ { c₁ with scope := c₁.scope.opened c₁.login.lr }).scope.socket
            = none := by
          rw [hsc, hn₁.scope]
          unfold SessionScope.opened
          split <;> exact hsock
        exact (@afterHandler_keep b wait _ _ hs) ▸
          Decides.granted hneed (hlr ▸ hm) hn₁ hcalm

end Decision

/-! ## The second factor and switching sides -/

section Others

variable {k : Crypto} {b : Build} {e : Env} {sh : Shared} {c : Conn}

/-- The session a code that is right leaves behind keeps the password it had. -/
def Marks (sh : Shared) (key : SessionKey) (key' : SessionKey) (s : Session) : Prop :=
  key' = key ∧ (s.randomPassword = "" ∨
    ∃ s₀, sh.sessions key = some s₀ ∧ s₀.randomPassword = s.randomPassword)

theorem onAuth2fa_cases (tfa : Auth2fa) :
    (∃ sh' c', onAuth2fa k b e tfa sh c = ⟨sh', c', .keep⟩ ∧ Near c c' ∧
      Calm e.freshPassword sh sh') ∨
    (∃ totp sh₁, c.login.awaiting2fa = true ∧ c.login.require2fa = some totp ∧
      k.checkCode totp e.now tfa.code = some true ∧
      Moves (Marks sh c.sessionKey) e.freshPassword sh sh₁ ∧
      onAuth2fa k b e tfa sh c =
        logon b e (.twoFactor tfa) sh₁ { c with login := { c.login with require2fa := none } }) := by
  unfold onAuth2fa
  split
  · exact .inl ⟨_, _, rfl, .refl c, .refl _⟩
  rename_i haw
  dsimp only
  split
  · exact .inl ⟨_, _, rfl, .sendLoginError c _, .refl _⟩
  split
  · exact .inl ⟨_, _, rfl, .refl c, .refl _⟩
  rename_i totp htotp
  split
  · rename_i hcode
    refine .inr ⟨totp, _, by simpa using haw, htotp, hcode, ?_, rfl⟩
    refine (Moves.of_calm (Shared.calm_updateFailure sh _ _ _ _)).trans
      (Moves.mono (Shared.moves_setSession2fa _ e.now c.sessionKey) ?_)
    exact fun _ _ h => h
  · exact .inl ⟨_, _, rfl, .sendLoginError c _, Shared.calm_updateFailure _ _ _ _ _⟩
  · exact .inl ⟨_, _, rfl, .refl c, .refl _⟩

/-- The connection after the login request of a switch was taken in. -/
def Conn.switched (e : Env) (lr : LoginRequest) (c : Conn) : Conn :=
  { c with
    login := { c.login.takeRequest e lr with fromSwitch := true }
    scope := c.scope.resetForLogin }

/-- A switch-sides response carries the uuid stored for its id, which is then gone. -/
structure Switches (e : Env) (r : SwitchSidesResponse) (lr : LoginRequest) (sh sh₁ : Shared) :
    Prop where
  request : r.lr = some lr
  length : r.uuid.length = 16
  stored : ∃ t, sh.switchSidesUuid lr.myId.1 = some (t, r.uuid) ∧ e.now - t < switchSidesUuidTtl
  union : lr.union = none
  taken : sh₁.switchSidesUuid lr.myId.1 = none
  calm : Calm e.freshPassword sh sh₁

theorem onSwitchSidesResponse_cases (r : SwitchSidesResponse) :
    (∃ sh', onSwitchSidesResponse b e r sh c = ⟨sh', c, .keep⟩ ∧ Calm e.freshPassword sh sh') ∨
    (∃ sh' c', onSwitchSidesResponse b e r sh c = ⟨sh', c', .close⟩ ∧
      c'.login.authorized = c.login.authorized ∧ c'.id = c.id ∧ Calm e.freshPassword sh sh') ∨
    (∃ lr sh₁ c₁, Switches e r lr sh sh₁ ∧ Near (c.switched e lr) c₁ ∧
      onSwitchSidesResponse b e r sh c = logon b e .switchSides sh₁ c₁) := by
  unfold onSwitchSidesResponse
  split
  · exact .inl ⟨_, rfl, .refl _⟩
  split
  · exact .inl ⟨_, rfl, .refl _⟩
  rename_i lr hlr
  dsimp only
  have htake := @Shared.calm_takeSwitchSidesUuid e.freshPassword sh e.now lr.myId.1
  split
  · rename_i hmatch
    split
    · exact .inr (.inl ⟨_, _, rfl, rfl, rfl, htake⟩)
    rename_i hunion
    obtain ⟨f, c₂, ok, hid, hnear⟩ := @checkIdWhitelist_near e ((sh.takeSwitchSidesUuid e.now lr.myId.1).2) { c.resetSessionScopeForLogin with
        login := c.resetSessionScopeForLogin.login.takeRequest e lr }
    rw [hid]
    obtain ⟨t, ht⟩ := hnear.login
    have hcalm : Calm e.freshPassword sh
        { (sh.takeSwitchSidesUuid e.now lr.myId.1).2 with loginFailures := f } :=
      htake.trans (.of_eq rfl rfl (.inl rfl))
    cases ok with
    | false =>
      refine .inr (.inl ⟨_, _, rfl, ?_, hnear.id, hcalm⟩)
      rw [ht]
      rfl
    | true =>
      refine .inr (.inr ⟨lr, _, _, ⟨hlr, hmatch.1, ?_, by simpa using hunion, ?_, hcalm⟩, ?_, rfl⟩)
      · exact sh.takeSwitchSidesUuid_some hmatch.2
      · exact sh.takeSwitchSidesUuid_self e.now lr.myId.1
      · refine ⟨⟨t, ?_⟩, hnear.scope, hnear.guard, hnear.phase, hnear.id⟩
        rw [ht]
        rfl
  · exact .inl ⟨_, rfl, htake⟩

end Others

end FontisRemote.Connection
