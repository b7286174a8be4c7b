import FontisRemote.Connection.Admission
import FontisRemote.Lib.Slots

/-!
# What one turn of a connection can do

`Turn` says once, for all that is proved about runs, what a step of a connection does to its login,
its scope, its guard and what is shared. The invariants that are carried through a run are case
analyses over it and do not look at the handlers again.
-/

namespace FontisRemote.Connection

open FontisRemote.Lib FontisRemote.Login

/-- The connection at the start of a turn: the effects of the last one are forgotten, and what the
threads of the services do meanwhile is known. -/
def Conn.clear (e : Env) (c : Conn) : Conn := c.onDesk fun d => { d with out := [], swapping := e.swapping }

/-- What holds of every connection between its turns. -/
structure Conn.Wf (c : Conn) : Prop where
  waiting : c.login.authorized = false → c.phase ≠ .ended →
    c.desk.authed = none ∧ c.login.sessionLastRecvTime = none ∧ c.login.fromSwitch = false ∧
      c.scope.isPortForward = false
  typed : c.login.authorized = true → c.phase ≠ .ended →
    c.desk.authed = some c.scope.authConnType ∧ c.login.awaiting2fa = false
  connecting : ∀ kont, c.phase = .connecting kont → c.login.authorized = false ∧
    c.login.awaiting2fa = false ∧ kont ≠ .switchSides ∧ ∃ pf, c.login.lr.union = some (.portForward pf) ∧ pf.multiplex = false
  forwarding : c.phase = .forwarding → c.login.authorized = true

theorem Conn.Wf.clear {c : Conn} (h : c.Wf) (e : Env) : (c.clear e).Wf :=
  ⟨h.waiting, h.typed, h.connecting, h.forwarding⟩

def ConnEvent.IsLogin : ConnEvent → Prop
  | .recv (.loginRequest _) => True
  | _ => False

/-- The state a connect to the target of a port forward is resumed in. -/
def Conn.connected (c : Conn) : Conn :=
  { c with
    phase := .running
    scope := { c.scope with socket := some c.scope.portForwardAddress } }

/-- What one turn of a connection does, by what happened. -/
inductive Turn (k : Crypto) (b : Build) (e : Env) (sh : Shared) (c : Conn) :
    ConnEvent → Shared → Conn → Prop
  /-- Nothing that counts. -/
  | quiet {ev : ConnEvent} {sh' : Shared} {c' : Conn} (loop : ∀ kont, c.phase ≠ .connecting kont)
      (plain : ev.IsLogin → c.login.authorized = true) (near : Near c c')
      (calm : Calm e.freshPassword sh sh') : Turn k b e sh c ev sh' c'
  /-- The connection goes over to forwarding. -/
  | forwards {ev : ConnEvent} {sh' : Shared} {c' : Conn} (running : c.phase = .running)
      (authorized : c.login.authorized = true) (near : Near { c with phase := .forwarding } c')
      (calm : Calm e.freshPassword sh sh') : Turn k b e sh c ev sh' c'
  | gone {ev : ConnEvent} {sh' : Shared} {c' : Conn} (gone : Gone c c')
      (calm : Calm e.freshPassword sh sh') : Turn k b e sh c ev sh' c'
  /-- A message of an authorized connection is handled. -/
  | message {msg : Message} {sh' : Shared} {c' : Conn} (running : c.phase = .running)
      (authorized : c.login.authorized = true)
      (handles : Desk.Handles b c.scope msg c.desk.guard c'.desk.guard)
      (same : c' = { c with desk := c'.desk }) (calm : Calm e.freshPassword sh sh') :
      Turn k b e sh c (.recv msg) sh' c'
  | permission {name : Permission} {enabled : Bool} {c' : Conn} (running : c.phase = .running)
      (switch : c'.desk.guard = c.desk.guard.switch b c.login.authorized name enabled)
      (same : c' = { c with desk := c'.desk }) :
      Turn k b e sh c (.switchPermission name enabled) sh c'
  | calls {ev : ConnEvent} {c' : Conn} (running : c.phase = .running) (plain : ¬ev.IsLogin)
      (calls : c.desk.guard.Calls b c'.desk.guard)
      (same : c' = { c with desk := c'.desk }) : Turn k b e sh c ev sh c'
  /-- A login request is taken in and not let in. -/
  | asked {lr : LoginRequest} {sh' : Shared} {c' : Conn} (running : c.phase = .running)
      (waiting : c.login.authorized = false) (took : Took k e lr none c c')
      (calm : Calm e.freshPassword sh sh') : Turn k b e sh c (.recv (.loginRequest lr)) sh' c'
  /-- A login request whose password is right. -/
  | login {lr : LoginRequest} {m : Matched} {sh₁ sh' : Shared} {c₁ c' : Conn}
      (running : c.phase = .running) (waiting : c.login.authorized = false)
      (verified : Verified k e sh { c.login with lr := lr } m)
      (remembered : Remembered e lr m sh sh₁) (took : Took k e lr (some m) c c₁)
      (decides : Decides b e .login sh₁ c₁ sh' c') : Turn k b e sh c (.recv (.loginRequest lr)) sh' c'
  /-- A code that is right. -/
  | code {tfa : Auth2fa} {totp : Totp} {sh₁ sh' : Shared} {c' : Conn} (running : c.phase = .running)
      (waiting : c.login.authorized = false) (awaiting : c.login.awaiting2fa = true)
      (required : c.login.require2fa = some totp)
      (checked : k.checkCode totp e.now tfa.code = some true)
      (moves : Moves (Marks sh c.sessionKey) e.freshPassword sh sh₁)
      (decides : Decides b e (.twoFactor tfa) sh₁
        { c with login := { c.login with require2fa := none } } sh' c') :
      Turn k b e sh c (.recv (.auth2fa tfa)) sh' c'
  | approved {sh' : Shared} {c' : Conn} (running : c.phase = .running)
      (waiting : c.login.authorized = false)
      (decides : Decides b e .authorize sh { c with login := { c.login with require2fa := none } }
        sh' c') : Turn k b e sh c .authorize sh' c'
  | switched {r : SwitchSidesResponse} {lr : LoginRequest} {sh₁ sh' : Shared} {c₁ c' : Conn}
      (running : c.phase = .running) (waiting : c.login.authorized = false)
      (switches : Switches e r lr sh sh₁) (near : Near (c.switched e lr) c₁)
      (decides : Decides b e .switchSides sh₁ c₁ sh' c') :
      Turn k b e sh c (.recv (.switchSidesResponse r)) sh' c'
  /-- A desktop session switches sides again. -/
  | again {r : SwitchSidesResponse} {lr : LoginRequest} {sh' : Shared} {c' : Conn}
      (running : c.phase = .running) (authorized : c.login.authorized = true)
      (type : c.desk.authed = some .remote) (near : Near (c.switched e lr) c')
      (calm : Calm e.freshPassword sh sh') : Turn k b e sh c (.recv (.switchSidesResponse r)) sh' c'
  /-- The connection manager lets in what is in already. -/
  | waives {ph : Phase} {c' : Conn} (running : c.phase = .running)
      (authorized : c.login.authorized = true) (phase : ph = .running ∨ ph = .forwarding)
      (near : Near { c with login := { c.login with require2fa := none }, phase := ph } c') :
      Turn k b e sh c .authorize sh c'
  /-- The connect of a port forward has succeeded. -/
  | connected {kont : Kont} {c' : Conn} (phase : c.phase = .connecting kont)
      (running : c'.phase = .running ∨ c'.phase = .forwarding)
      (same : c' = { grant b e kont sh c.connected with phase := c'.phase }) :
      Turn k b e sh c (.connected true) (sh.authorize e c.connected) c'

section Inversion

variable {k : Crypto} {b : Build} {e : Env} {sh : Shared} {c : Conn}

/-- A handler that keeps an authorized connection, and what the loop does after it. -/
theorem Turn.keep {ev : ConnEvent} {wait : Bool} {sh' : Shared} {c' : Conn}
    (hrun : c.phase = .running) (hplain : ev.IsLogin → c.login.authorized = true) (hnear : Near c c') (hcalm : Calm e.freshPassword sh sh') :
    Turn k b e sh c ev (afterHandler b wait ⟨sh', c', .keep⟩).1
      (afterHandler b wait ⟨sh', c', .keep⟩).2 := by
  unfold afterHandler
  dsimp only
  split
  · rename_i h
    simp only [Bool.and_eq_true] at h
    have hauth : c.login.authorized = true := hnear.authorized ▸ h.1.2
    exact .forwards hrun hauth ⟨hnear.login, hnear.scope, hnear.guard, rfl, hnear.id⟩ hcalm
  · exact .quiet (by simp [hrun]) hplain hnear hcalm

theorem Turn.close {ev : ConnEvent} {wait : Bool} {sh' : Shared} {c' : Conn}
    (hauth : c'.login.authorized = c.login.authorized) (hid : c'.id = c.id)
    (hcalm : Calm e.freshPassword sh sh') :
    Turn k b e sh c ev (afterHandler b wait ⟨sh', c', .close⟩).1
      (afterHandler b wait ⟨sh', c', .close⟩).2 :=
  .gone ⟨rfl, hauth, rfl, hid⟩ (hcalm.trans (calm_endConn b sh' c'))

theorem near_onClose (lock : Bool) (sh : Shared) (c : Conn) : Near c (c.onClose b lock sh) :=
  .onDesk c (Desk.guard_onClose _ _ _ _)

theorem requested_isPortForward (lr : LoginRequest) (sc : SessionScope) :
    (sc.requested lr).isPortForward = sc.isPortForward := by
  unfold SessionScope.requested
  split <;> rfl

theorem asked_isPortForward {lr : LoginRequest} {m : Option Matched} {c' : Conn}
    (h : Took k e lr m c c') : c'.scope.isPortForward = c.scope.isPortForward := by
  rw [h.near.scope]
  exact requested_isPortForward lr c.scope

theorem turn_onLoginRequest {wait : Bool} (lr : LoginRequest) (hrun : c.phase = .running)
    (hun : c.login.authorized = false) (hpf : c.scope.isPortForward = false) :
    Turn k b e sh c (.recv (.loginRequest lr)) (afterHandler b wait (onLoginRequest k b e lr sh c)).1
      (afterHandler b wait (onLoginRequest k b e lr sh c)).2 := by
  rcases @onLoginRequest_cases k b e sh c lr with
    ⟨sh', c', ho, hauth, hid, hcalm⟩ | ⟨sh', c', ho, htook, hcalm⟩ | ⟨m, sh₁, c₁, hv, hr, htook, ho⟩
  · rw [ho]
    exact .close hauth hid hcalm
  · rw [ho, afterHandler_keep (socket_of_not_isPortForward (asked_isPortForward htook ▸ hpf)).1]
    exact .asked hrun hun htook hcalm
  · rw [ho]
    have hun₁ : c₁.login.authorized = false := htook.near.authorized.trans hun
    exact .login hrun hun hv hr htook (decides_logon wait hun₁ (asked_isPortForward htook ▸ hpf))

theorem turn_onAuth2fa {wait : Bool} (tfa : Auth2fa) (hrun : c.phase = .running)
    (hun : c.login.awaiting2fa = true → c.login.authorized = false)
    (hpf : c.login.awaiting2fa = true → c.scope.isPortForward = false) :
    Turn k b e sh c (.recv (.auth2fa tfa)) (afterHandler b wait (onAuth2fa k b e tfa sh c)).1
      (afterHandler b wait (onAuth2fa k b e tfa sh c)).2 := by
  rcases @onAuth2fa_cases k b e sh c tfa with
    ⟨sh', c', ho, hnear, hcalm⟩ | ⟨totp, sh₁, haw, hreq, hcode, hmoves, ho⟩
  · rw [ho]
    exact .keep hrun False.elim hnear hcalm
  · rw [ho]
    exact .code hrun (hun haw) haw hreq hcode hmoves (decides_logon wait (hun haw) (hpf haw))

theorem turn_onSwitchSides_waiting {wait : Bool} (r : SwitchSidesResponse) (hrun : c.phase = .running)
    (hun : c.login.authorized = false) (hpf : c.scope.isPortForward = false) :
    Turn k b e sh c (.recv (.switchSidesResponse r))
      (afterHandler b wait (onSwitchSidesResponse b e r sh c)).1
      (afterHandler b wait (onSwitchSidesResponse b e r sh c)).2 := by
  rcases @onSwitchSidesResponse_cases b e sh c r with
    ⟨sh', ho, hcalm⟩ | ⟨sh', c', ho, hauth, hid, hcalm⟩ | ⟨lr, sh₁, c₁, hsw, hnear, ho⟩
  · rw [ho]
    exact .keep hrun False.elim (.refl c) hcalm
  · rw [ho]
    exact .close hauth hid hcalm
  · rw [ho]
    refine .switched hrun hun hsw hnear (decides_logon wait (hnear.authorized.trans hun) ?_)
    rw [hnear.scope]
    exact hpf

/-- Once authorized, a login goes no further. -/
theorem logon_authorized {kont : Kont} (h : c.login.authorized = true) :
    logon b e kont sh c = ⟨sh, afterLogon kont c, .keep⟩ := by
  unfold logon sendLogonResponse
  rw [if_pos h]

theorem turn_onSwitchSides_remote {wait : Bool} {sh₀ : Shared} (r : SwitchSidesResponse)
    (hrun : c.phase = .running) (hauth : c.login.authorized = true)
    (hty : c.desk.authed = some .remote) (hpf : c.scope.isPortForward = false)
    (hcalm₀ : Calm e.freshPassword sh sh₀) :
    Turn k b e sh c (.recv (.switchSidesResponse r))
      (afterHandler b wait (onSwitchSidesResponse b e r sh₀ c)).1
      (afterHandler b wait (onSwitchSidesResponse b e r sh₀ c)).2 := by
  rcases @onSwitchSidesResponse_cases b e sh₀ c r with
    ⟨sh', ho, hcalm⟩ | ⟨sh', c', ho, hauth', hid, hcalm⟩ | ⟨lr, sh₁, c₁, hsw, hnear, ho⟩
  · rw [ho]
    exact .keep hrun False.elim (.refl c) (hcalm₀.trans hcalm)
  · rw [ho]
    exact .close hauth' hid (hcalm₀.trans hcalm)
  · have hnear' := hnear.trans (.afterLogon .switchSides c₁)
    have hsock : (afterLogon .switchSides c₁).scope.socket = none := by
      rw [hnear'.scope]
      exact (socket_of_not_isPortForward hpf).1
    rw [ho, logon_authorized (hnear.authorized.trans hauth), afterHandler_keep hsock]
    exact .again hrun hauth hty hnear' (hcalm₀.trans hsw.calm)

/-- Only a desktop session lets a switch-sides response through. -/
theorem remote_of_switchSides {windows : Bool} {t : Option AuthConnType} {r : SwitchSidesResponse}
    (h : authorizedScopeViolation windows t (.switchSidesResponse r) = none) : t = some .remote := by
  cases t with
  | none => simp [authorizedScopeViolation, isConnectionHousekeepingMessage] at h
  | some t =>
    cases t with
    | remote => rfl
    | fileTransfer | portForward | viewCamera | terminal =>
      simp [authorizedScopeViolation, authorizedMessageScopeViolation, isConnectionHousekeepingMessage,
        isNoopCompat, isRenderBroadcastNoopCompatMessage, isTextClipboardNoopCompatMessage, isAllowed,
        isFileTransferScopedMessage, isPortForwardScopedMessage, isViewCameraScopedMessage,
        isTerminalScopedMessage] at h

theorem isPortForward_of_remote {sc : SessionScope} (h : sc.authConnType = .remote) :
    sc.isPortForward = false := by
  have h := Desk.isRemote_of_authConnType sc h
  simp only [SessionScope.isRemote, Bool.and_eq_true, Bool.not_eq_true'] at h
  exact h.1.1.2

/-- A message past the gate that is about no login. -/
theorem turn_handled {wait : Bool} {msg : Message} {sh' : Shared} (hrun : c.phase = .running)
    (hplain : ¬(ConnEvent.recv msg).IsLogin) (hwf : c.Wf) (hcalm : Calm e.freshPassword sh sh')
    (hgate : c.login.authorized = true → authorizedScopeViolation b.windows c.desk.authed msg = none) :
    let o : Outcome := if c.login.authorized && c.scope.socket.isNone then
        let r := c.desk.onAuthorizedMessage b e.toPlatform c.scope c.login.lr
          c.login.terminalUserToken.isSome msg
        ⟨sh', { c with desk := r.1 }, if r.2 then .keep else .close⟩
      else ⟨sh', c, .keep⟩
    Turn k b e sh c (.recv msg) (afterHandler b wait o).1 (afterHandler b wait o).2 := by
  dsimp only
  split
  · rename_i h
    simp only [Bool.and_eq_true, Option.isNone_iff_eq_none] at h
    obtain ⟨hauth, hsock⟩ := h
    have hty := (hwf.typed hauth (by simp [hrun])).1
    split
    · have hkeep := @afterHandler_keep b wait sh' { c with
        desk := (c.desk.onAuthorizedMessage b e.toPlatform c.scope c.login.lr
          c.login.terminalUserToken.isSome msg).1 } hsock
      rw [hkeep]
      exact .message hrun hauth (Desk.handles_onAuthorizedMessage hty (hgate hauth)) rfl hcalm
    · exact .close rfl rfl hcalm
  · exact .keep hrun (fun h => absurd h hplain) (.refl c) hcalm

theorem turn_dispatch {wait : Bool} {msg : Message} (hrun : c.phase = .running) (hwf : c.Wf)
    (hlogin : ∀ lr, msg = .loginRequest lr → c.login.authorized = false)
    (hgate : c.login.authorized = true → authorizedScopeViolation b.windows c.desk.authed msg = none) :
    Turn k b e sh c (.recv msg)
      (afterHandler b wait (dispatch k b e msg (sh.touch e.now c.login.sessionLastRecvTime) c)).1
      (afterHandler b wait (dispatch k b e msg (sh.touch e.now c.login.sessionLastRecvTime) c)).2 := by
  have hlive : c.phase ≠ .ended := by simp [hrun]
  have htouch := @Shared.calm_touch e.freshPassword sh e.now c.login.sessionLastRecvTime
  have hwait : c.login.authorized = false → sh.touch e.now c.login.sessionLastRecvTime = sh := by
    intro hun
    rw [(hwf.waiting hun hlive).2.1]
    rfl
  cases msg with
  | loginRequest lr =>
    have hun := hlogin lr rfl
    rw [hwait hun]
    exact turn_onLoginRequest lr hrun hun (hwf.waiting hun hlive).2.2.2
  | auth2fa tfa =>
    cases hauth : c.login.authorized with
    | false =>
      rw [hwait hauth]
      exact turn_onAuth2fa tfa hrun (fun _ => hauth) (fun _ => (hwf.waiting hauth hlive).2.2.2)
    | true =>
      have haw := (hwf.typed hauth hlive).2
      unfold dispatch onAuth2fa
      rw [haw]
      exact .keep hrun False.elim (.refl c) htouch
  | testDelay time fromClient =>
    exact .keep hrun False.elim (.onDesk c (Desk.guard_onTestDelay _ _ _ _)) htouch
  | switchSidesResponse r =>
    cases hauth : c.login.authorized with
    | false =>
      rw [hwait hauth]
      exact turn_onSwitchSides_waiting r hrun hauth (hwf.waiting hauth hlive).2.2.2
    | true =>
      have hty := remote_of_switchSides (hgate hauth)
      have htyped := (hwf.typed hauth hlive).1
      rw [hty] at htyped
      have hpf := isPortForward_of_remote (Option.some.inj htyped).symm
      exact turn_onSwitchSides_remote r hrun hauth hty hpf htouch
  | empty | mouseEvent _ | audioFrame _ | keyEvent _ | clipboard _ | fileAction _ | fileResponse _
  | misc _ | cliprdr _ | voiceCallRequest _ _ | voiceCallResponse _ | pointerDeviceEvent _
  | multiClipboards _ | screenshotRequest _ _ | screenshotResponse | terminalAction _
  | terminalResponse | portForwardChannel _ | other => exact turn_handled hrun id hwf htouch hgate

theorem turn_onMessage {wait : Bool} {msg : Message} (hrun : c.phase = .running) (hwf : c.Wf) :
    Turn k b e sh c (.recv msg)
      (afterHandler b wait (onMessage k b e msg (sh.touch e.now c.login.sessionLastRecvTime) c)).1
      (afterHandler b wait (onMessage k b e msg (sh.touch e.now c.login.sessionLastRecvTime) c)).2 := by
  have htouch := @Shared.calm_touch e.freshPassword sh e.now c.login.sessionLastRecvTime
  unfold onMessage
  split
  · have hnear := near_onClose (b := b) true (sh.touch e.now c.login.sessionLastRecvTime) c
    exact .close hnear.authorized hnear.id (htouch.trans (Shared.calm_checkRemoveSession _ _ _))
  split
  · rename_i hauth
    split
    · exact .keep hrun (fun _ => hauth) (.refl c) htouch
    · rename_i hlogin
      split
      · rename_i family _
        have hviol : Near c (c.onDesk (·.onScopeViolation e.toPlatform family)) :=
          .onDesk c (Desk.guard_onScopeViolation _ _ _)
        unfold onViolation
        dsimp only
        split
        · unfold closeNoRetry
          dsimp only
          refine .close (hviol.trans ((Near.send _ _).trans (near_onClose _ _ _))).authorized ?_ ?_
          · exact (hviol.trans ((Near.send _ _).trans (near_onClose _ _ _))).id
          · exact htouch.trans (Shared.calm_checkRemoveSession _ _ _)
        · exact .keep hrun (fun _ => hauth) hviol htouch
      · rename_i hgate
        exact turn_dispatch hrun hwf (fun lr h => absurd h (hlogin lr)) (fun _ => hgate)
  · rename_i hauth
    exact turn_dispatch hrun hwf (fun _ _ => by simpa using hauth) (fun h => absurd h hauth)

theorem Turn.of_some {ev : ConnEvent} {r : Shared × Conn} {sh' : Shared} {c' : Conn}
    (ht : Turn k b e sh c ev r.1 r.2) (h : some r = some (sh', c')) : Turn k b e sh c ev sh' c' := by
  obtain rfl := Option.some.inj h
  exact ht

/-- The connection manager lets a connection in. -/
theorem turn_authorize (hrun : c.phase = .running) (hwf : c.Wf) :
    Turn k b e sh c .authorize
      (afterHandler b false (logon b e .authorize sh
        { c with login := { c.login with require2fa := none } })).1
      (afterHandler b false (logon b e .authorize sh
        { c with login := { c.login with require2fa := none } })).2 := by
  have hlive : c.phase ≠ .ended := by simp [hrun]
  cases hauth : c.login.authorized with
  | false => exact .approved hrun hauth (decides_logon false hauth (hwf.waiting hauth hlive).2.2.2)
  | true =>
    have ho := @logon_authorized b e sh { c with login := { c.login with require2fa := none } } .authorize hauth
    rw [ho]
    unfold afterHandler
    dsimp only
    split
    · exact .waives hrun hauth (.inr rfl) (.refl _)
    · exact .waives hrun hauth (.inl hrun) (.refl _)

/-- The connect of a port forward is over. -/
theorem turn_onConnected {kont : Kont} {wait ok : Bool} (hph : c.phase = .connecting kont) :
    Turn k b e sh c (.connected ok) (afterHandler b wait (onConnected b e kont ok sh c)).1
      (afterHandler b wait (onConnected b e kont ok sh c)).2 := by
  unfold onConnected
  cases ok with
  | true =>
    simp only [if_true]
    unfold afterHandler
    dsimp only
    split
    · exact .connected hph (.inr rfl) rfl
    · refine .connected hph (.inl ?_) ?_
      · exact grant_phase sh c.connected
      · rfl
  | false =>
    simp only [Bool.false_eq_true, if_false]
    exact .close rfl rfl (.refl _)

/-- Every turn of a connection is one of these. -/
theorem turn_of_connStep {ev : ConnEvent} {sh' : Shared} {c' : Conn} (hwf : c.Wf)
    (h : connStep k b e ev sh c = some (sh', c')) : Turn k b e sh (c.clear e) ev sh' c' := by
  have hcl : c.onDesk (fun d => { d with out := [], swapping := e.swapping }) = c.clear e := rfl
  unfold connStep at h
  rw [hcl] at h
  dsimp only at h
  have hwf := hwf.clear e
  generalize c.clear e = c at h hwf ⊢
  split at h
  · cases h
  · rename_i kont hph
    split at h
    · exact .of_some (turn_onConnected hph) h
    · cases h
  · rename_i hph
    split at h
    · rename_i lock
      have hnear := near_onClose (b := b) lock sh c
      refine .of_some (.gone ?_ ?_) h
      · exact ⟨rfl, hnear.authorized, rfl, hnear.id⟩
      · exact (Shared.calm_checkRemoveSession sh _ _).trans (calm_endConn b _ _)
    · exact .of_some (.quiet (by simp [hph]) False.elim (.refl c) (.refl _)) h
    · cases h
  · rename_i hrun
    have hloop : ∀ kont, c.phase ≠ .connecting kont := by simp [hrun]
    cases ev with
    | recv msg => exact .of_some (turn_onMessage hrun hwf) h
    | recvOther => exact .of_some (.quiet hloop False.elim (.refl c) (sh.calm_touch e.now _)) h
    | connected ok => cases h
    | authorize => exact .of_some (turn_authorize hrun hwf) h
    | switchPermission name enabled =>
      cases h
      exact .permission hrun (Desk.guard_switchPermission b c.desk e.toPlatform _ _ _) rfl
    | voiceCallResponse accepted =>
      cases h
      exact .calls hrun id (Desk.calls_handleVoiceCall b c.desk accepted) rfl
    | closeVoiceCall =>
      cases h
      exact .calls hrun id (Desk.calls_closeVoiceCall b c.desk) rfl
    | chatMessage text =>
      cases h
      exact .quiet hloop False.elim (.onDesk c rfl) (.refl _)
    | testDelay =>
      dsimp only at h
      split at h
      · cases h
        exact .quiet hloop False.elim (.onDesk c rfl) (.refl _)
      · exact .of_some (.quiet hloop False.elim (.refl c) (.refl _)) h
    | printerData path data =>
      cases h
      exact .quiet hloop False.elim (.onDesk c rfl) (.refl _)
    | jobs readJobs cmReadJobIds =>
      cases h
      exact .quiet hloop False.elim (.onDesk c rfl) (.refl _)
    | finish reason lock =>
      cases reason with
      | none =>
        have hnear := near_onClose (b := b) lock sh c
        refine .of_some (.gone ?_ (calm_endConn b sh _)) h
        exact ⟨rfl, hnear.authorized, rfl, hnear.id⟩
      | some text =>
        refine .of_some (.gone ⟨rfl, rfl, rfl, rfl⟩ ?_) h
        exact (Shared.calm_checkRemoveSession sh _ _).trans (calm_endConn b _ _)

end Inversion

/-! ## Well-formedness is kept -/

section Wf

variable {k : Crypto} {b : Build} {e : Env} {sh sh' : Shared} {c c' : Conn}

theorem Near.wf (h : Near c c') (hwf : c.Wf) : c'.Wf := by
  obtain ⟨t, ht⟩ := h.login
  have hauthed : c'.desk.authed = c.desk.authed := congrArg Guard.authed h.guard
  refine ⟨?_, ?_, ?_, ?_⟩
  · rw [ht, h.scope, h.phase, hauthed]
    exact hwf.waiting
  · rw [ht, h.scope, h.phase, hauthed]
    exact hwf.typed
  · rw [ht, h.phase]
    exact hwf.connecting
  · rw [ht, h.phase]
    exact hwf.forwarding

theorem Gone.wf (h : Gone c c') : c'.Wf where
  waiting _ hlive := absurd h.phase hlive
  typed _ hlive := absurd h.phase hlive
  connecting kont hk := by
    rw [h.phase] at hk
    cases hk
  forwarding hf := by
    rw [h.phase] at hf
    cases hf

/-- A change of the desk that keeps the type. -/
theorem wf_of_desk (hwf : c.Wf) (hs : c' = { c with desk := c'.desk })
    (hauthed : c'.desk.guard.authed = c.desk.guard.authed) : c'.Wf := by
  have hd : c'.desk.authed = c.desk.authed := hauthed
  rw [hs]
  exact ⟨fun hun hlive => hd ▸ hwf.waiting hun hlive, fun ha hlive => hd ▸ hwf.typed ha hlive,
    hwf.connecting, hwf.forwarding⟩

theorem grant_authed (kont : Kont) (sh : Shared) (c : Conn) :
    (grant b e kont sh c).desk.authed = some c.scope.authConnType := by
  have h₁ := (Near.afterLogon kont ((c.authorize sh).beginSession b e)).guard
  have h₂ := (begins_beginSession b e (c.authorize sh) rfl).authed
  exact (congrArg Guard.authed h₁).trans h₂

/-- A connection that was just authorized, in the loop or forwarding. -/
theorem wf_of_grant {kont : Kont} {c₁ : Conn}
    (hs : c' = { grant b e kont sh c₁ with phase := c'.phase })
    (hph : c'.phase = .running ∨ c'.phase = .forwarding) (haw : c₁.login.awaiting2fa = false) :
    c'.Wf := by
  obtain ⟨o, hl⟩ := @grant_login b e kont sh c₁
  obtain ⟨id, hsc, -⟩ := @grant_scope b e kont sh c₁
  have hauth : c'.login.authorized = true := by
    rw [hs]
    exact congrArg Login.authorized hl
  refine ⟨fun hun => ?_, fun _ _ => ⟨?_, ?_⟩, fun kont' hk => ?_, fun _ => hauth⟩
  · rw [hauth] at hun
    cases hun
  · rw [hs]
    dsimp only
    rw [grant_authed, hsc]
    rfl
  · rw [hs]
    exact (congrArg Login.awaiting2fa hl).trans haw
  · rcases hph with h | h <;> rw [h] at hk <;> cases hk

/-- A connection that is about to be decided on. -/
structure Entering (kont : Kont) (c : Conn) : Prop where
  phase : c.phase = .running
  authorized : c.login.authorized = false
  authed : c.desk.authed = none
  recv : c.login.sessionLastRecvTime = none
  portForward : c.scope.isPortForward = false
  switch : c.login.fromSwitch = true → kont = .switchSides
  union : kont = .switchSides → c.login.lr.union = none

theorem Decides.wf {kont : Kont} (hent : Entering kont c) (h : Decides b e kont sh c sh' c') :
    c'.Wf := by
  cases h with
  | second needs near =>
    refine near.wf ⟨fun _ _ => ⟨hent.authed, hent.recv, needs.2.2, hent.portForward⟩, fun ha => ?_,
      fun kont hk => ?_, fun hf => ?_⟩
    · exact absurd (hent.authorized.symm.trans ha) (by simp)
    · exact absurd (hent.phase.symm.trans hk) (by simp)
    · exact absurd (hent.phase.symm.trans hf) (by simp)
  | refused gone _ => exact gone.wf
  | @waits _ _ pf _ union single near _ =>
    have hk : kont ≠ .switchSides := by
      intro hk
      rw [hent.union hk] at union
      cases union
    have hsw : c.login.fromSwitch = false := by
      cases hf : c.login.fromSwitch with
      | false => rfl
      | true => exact absurd (hent.switch hf) hk
    refine near.wf ⟨fun _ _ => ⟨hent.authed, hent.recv, hsw, hent.portForward⟩, fun ha => ?_,
      fun kont' hk' => ?_, fun hf => ?_⟩
    · exact absurd (hent.authorized.symm.trans ha) (by simp)
    · cases hk'
      exact ⟨hent.authorized, rfl, hk, pf, union, single⟩
    · cases hf
  | granted _ _ near _ =>
    obtain ⟨t, ht⟩ := near.login
    refine wf_of_grant rfl (.inl ?_) ?_
    · rw [grant_phase, near.phase]
      exact hent.phase
    · rw [ht]

/-- A connection in the loop that is not authorized, with its login as it is after a request. -/
theorem entering {kont : Kont} {c₁ : Conn} (hwf : c.Wf) (hrun : c.phase = .running)
    (hun : c.login.authorized = false) (hph : c₁.phase = c.phase)
    (hauth : c₁.login.authorized = c.login.authorized)
    (hguard : c₁.desk.guard = c.desk.guard)
    (hrecv : c₁.login.sessionLastRecvTime = c.login.sessionLastRecvTime)
    (hpf : c₁.scope.isPortForward = c.scope.isPortForward)
    (hsw : c₁.login.fromSwitch = c.login.fromSwitch ∨ kont = .switchSides)
    (hunion : kont = .switchSides → c₁.login.lr.union = none) : Entering kont c₁ := by
  obtain ⟨hauthed', hrecv', hsw', hpf'⟩ := hwf.waiting hun (by simp [hrun])
  refine ⟨hph.trans hrun, hauth.trans hun, (congrArg Guard.authed hguard).trans hauthed',
    hrecv.trans hrecv', hpf.trans hpf', fun h => ?_, hunion⟩
  rcases hsw with hsw | hk
  · rw [hsw, hsw'] at h
    cases h
  · exact hk

theorem entering_waived {kont : Kont} (hwf : c.Wf) (hrun : c.phase = .running)
    (hun : c.login.authorized = false) (hk : kont ≠ .switchSides) :
    Entering kont { c with login := { c.login with require2fa := none } } :=
  entering hwf hrun hun rfl rfl rfl rfl rfl (.inl rfl) fun h => absurd h hk

theorem entering_took {lr : LoginRequest} {m : Option Matched} (hwf : c.Wf) (hrun : c.phase = .running)
    (hun : c.login.authorized = false) (h : Took k e lr m c c') : Entering .login c' := by
  obtain ⟨t, ht⟩ := h.near.login
  refine entering hwf hrun hun h.near.phase h.near.authorized h.near.guard ?_ (asked_isPortForward h)
    (.inl ?_) (fun h => by cases h)
  · rw [ht]
    rfl
  · rw [ht]
    rfl

theorem entering_switched {r : SwitchSidesResponse} {lr : LoginRequest} {sh₁ : Shared} (hwf : c.Wf)
    (hrun : c.phase = .running) (hun : c.login.authorized = false)
    (hsw : Switches e r lr sh sh₁) (h : Near (c.switched e lr) c') : Entering .switchSides c' := by
  obtain ⟨t, ht⟩ := h.login
  refine entering hwf hrun hun h.phase h.authorized h.guard ?_ ?_ (.inr rfl) (fun _ => ?_)
  · rw [ht]
    rfl
  · rw [h.scope]
    rfl
  · rw [ht]
    exact hsw.union

/-- Every turn keeps a connection well-formed. -/
theorem Turn.wf {ev : ConnEvent} (hwf : c.Wf) (h : Turn k b e sh c ev sh' c') : c'.Wf := by
  cases h with
  | quiet _ _ near _ => exact near.wf hwf
  | forwards running authorized near _ =>
    refine near.wf ⟨fun hun => ?_, fun ha _ => hwf.typed ha (by simp [running]), fun _ hk => ?_,
      fun _ => authorized⟩
    · exact absurd (authorized.symm.trans hun) (by simp)
    · cases hk
  | gone gone _ => exact gone.wf
  | message _ _ handles same _ => exact wf_of_desk hwf same handles.authed
  | permission _ switch same =>
    exact wf_of_desk hwf same ((congrArg Guard.authed switch).trans (Guard.switch_authed _ _ _ _))
  | calls _ _ calls same => exact wf_of_desk hwf same calls.authed
  | asked running waiting took _ =>
    have hent := entering_took hwf running waiting took
    refine ⟨fun _ _ => ⟨hent.authed, hent.recv, ?_, hent.portForward⟩, fun ha => ?_, fun _ hk => ?_,
      fun hf => ?_⟩
    · cases hs : c'.login.fromSwitch with
      | false => rfl
      | true => exact absurd (hent.switch hs) (by simp)
    · exact absurd (hent.authorized.symm.trans ha) (by simp)
    · exact absurd (hent.phase.symm.trans hk) (by simp)
    · exact absurd (hent.phase.symm.trans hf) (by simp)
  | login running waiting _ _ took decides => exact decides.wf (entering_took hwf running waiting took)
  | code running waiting _ _ _ _ decides =>
    exact decides.wf (entering_waived hwf running waiting (by simp))
  | approved running waiting decides =>
    exact decides.wf (entering_waived hwf running waiting (by simp))
  | switched running waiting switches near decides =>
    exact decides.wf (entering_switched hwf running waiting switches near)
  | again running authorized type near _ =>
    have htyped := hwf.typed authorized (by simp [running])
    have hrem : c.scope.authConnType = .remote := Option.some.inj (htyped.1.symm.trans type)
    have hpf := isPortForward_of_remote hrem
    refine near.wf ⟨fun hun => ?_, fun _ _ => ⟨?_, htyped.2⟩, fun _ hk => ?_, fun hf => ?_⟩
    · exact absurd (authorized.symm.trans hun) (by simp)
    · refine type.trans ?_
      simp [Conn.switched, SessionScope.authConnType, SessionScope.resetForLogin,
        SessionScope.isPortForward, (socket_of_not_isPortForward hpf).1,
        (socket_of_not_isPortForward hpf).2]
    · exact absurd (running.symm.trans hk) (by simp)
    · exact absurd (running.symm.trans hf) (by simp)
  | @waives ph _ running authorized phase near =>
    refine near.wf ⟨fun hun => ?_, fun ha _ => hwf.typed ha (by simp [running]), fun _ hk => ?_,
      fun _ => authorized⟩
    · exact absurd (authorized.symm.trans hun) (by simp)
    · rcases phase with rfl | rfl <;> cases hk
  | connected phase running same => exact wf_of_grant same running (hwf.connecting _ phase).2.1

end Wf

/-! ## The turns that authorize -/

/-- The turns that can authorize a connection that is not. -/
inductive Enters (k : Crypto) (b : Build) (e : Env) (sh : Shared) (c : Conn) :
    ConnEvent → Shared → Conn → Prop
  | login {lr : LoginRequest} {m : Matched} {sh₁ sh' : Shared} {c₁ c' : Conn}
      (running : c.phase = .running) (verified : Verified k e sh { c.login with lr := lr } m)
      (remembered : Remembered e lr m sh sh₁) (took : Took k e lr (some m) c c₁)
      (decides : Decides b e .login sh₁ c₁ sh' c') : Enters k b e sh c (.recv (.loginRequest lr)) sh' c'
  | code {tfa : Auth2fa} {totp : Totp} {sh₁ sh' : Shared} {c' : Conn} (running : c.phase = .running)
      (awaiting : c.login.awaiting2fa = true) (required : c.login.require2fa = some totp)
      (checked : k.checkCode totp e.now tfa.code = some true)
      (moves : Moves (Marks sh c.sessionKey) e.freshPassword sh sh₁)
      (decides : Decides b e (.twoFactor tfa) sh₁
        { c with login := { c.login with require2fa := none } } sh' c') :
      Enters k b e sh c (.recv (.auth2fa tfa)) sh' c'
  | approved {sh' : Shared} {c' : Conn} (running : c.phase = .running)
      (decides : Decides b e .authorize sh { c with login := { c.login with require2fa := none } }
        sh' c') : Enters k b e sh c .authorize sh' c'
  | switched {r : SwitchSidesResponse} {lr : LoginRequest} {sh₁ sh' : Shared} {c₁ c' : Conn}
      (running : c.phase = .running) (switches : Switches e r lr sh sh₁)
      (near : Near (c.switched e lr) c₁) (decides : Decides b e .switchSides sh₁ c₁ sh' c') :
      Enters k b e sh c (.recv (.switchSidesResponse r)) sh' c'
  | connected {kont : Kont} {c' : Conn} (phase : c.phase = .connecting kont)
      (same : c' = { grant b e kont sh c.connected with phase := c'.phase }) :
      Enters k b e sh c (.connected true) (sh.authorize e c.connected) c'

theorem Turn.enters {k : Crypto} {b : Build} {e : Env} {sh sh' : Shared} {c c' : Conn} {ev : ConnEvent}
    (h : Turn k b e sh c ev sh' c') (hun : c.login.authorized = false)
    (hauth : c'.login.authorized = true) : Enters k b e sh c ev sh' c' := by
  have hnot : ¬c.login.authorized = true := by simp [hun]
  have hdesk : ∀ {d}, c' = { c with desk := d } → False := by
    rintro d rfl
    exact hnot hauth
  cases h with
  | quiet _ _ near _ => exact absurd (near.authorized ▸ hauth) hnot
  | forwards _ authorized _ _ => exact absurd authorized hnot
  | gone gone _ => exact absurd (gone.authorized ▸ hauth) hnot
  | message _ authorized _ _ _ => exact absurd authorized hnot
  | permission _ _ same => exact (hdesk same).elim
  | calls _ _ _ same => exact (hdesk same).elim
  | asked _ _ took _ => exact absurd (took.near.authorized ▸ hauth) hnot
  | login running _ verified remembered took decides =>
    exact .login running verified remembered took decides
  | code running _ awaiting required checked moves decides =>
    exact .code running awaiting required checked moves decides
  | approved running _ decides => exact .approved running decides
  | switched running _ switches near decides => exact .switched running switches near decides
  | again _ authorized _ _ _ => exact absurd authorized hnot
  | waives _ authorized _ _ => exact absurd authorized hnot
  | connected phase _ same => exact .connected phase same

/-! ## What a turn shares -/

section Shared

variable {k : Crypto} {b : Build} {e : Env} {sh sh' : Shared} {c c' : Conn}

theorem Decides.calm {kont : Kont} (h : Decides b e kont sh c sh' c') :
    Calm e.freshPassword sh sh' := by
  cases h with
  | second _ _ => exact sh.calm_retainSessions e.now
  | refused _ calm => exact calm
  | waits _ _ _ _ calm => exact calm
  | granted _ _ _ calm => exact calm.trans (Shared.calm_authorize _ e _)

/-- A connection is authorized only with its second factor. -/
theorem Decides.enough {kont : Kont} (h : Decides b e kont sh c sh' c')
    (hun : c.login.authorized = false) (hauth : c'.login.authorized = true) :
    ¬Needs2fa e sh c.login := by
  cases h with
  | second _ near => exact absurd ((near.authorized.trans hun).symm.trans hauth) (by simp)
  | refused gone _ => exact absurd ((gone.authorized.trans hun).symm.trans hauth) (by simp)
  | waits enough _ _ _ _ => exact enough
  | granted enough _ _ _ => exact enough

/-- What a turn puts into the shared tables. -/
inductive Shares (k : Crypto) (e : Env) (sh : Shared) (c : Conn) : ConnEvent → Shared → Prop
  | nothing {ev : ConnEvent} {sh' : Shared} (calm : Calm e.freshPassword sh sh') : Shares k e sh c ev sh'
  | password {lr : LoginRequest} {m : Matched} {sh' : Shared} (waiting : c.login.authorized = false)
      (verified : Verified k e sh { c.login with lr := lr } m)
      (moves : Moves (Remembers lr m) e.freshPassword sh sh') :
      Shares k e sh c (.recv (.loginRequest lr)) sh'
  | code {tfa : Auth2fa} {totp : Totp} {sh' : Shared} (waiting : c.login.authorized = false)
      (awaiting : c.login.awaiting2fa = true) (required : c.login.require2fa = some totp)
      (checked : k.checkCode totp e.now tfa.code = some true)
      (moves : Moves (Marks sh c.sessionKey) e.freshPassword sh sh') :
      Shares k e sh c (.recv (.auth2fa tfa)) sh'

theorem Turn.shares {ev : ConnEvent} (h : Turn k b e sh c ev sh' c') : Shares k e sh c ev sh' := by
  cases h with
  | quiet _ _ _ calm => exact .nothing calm
  | forwards _ _ _ calm => exact .nothing calm
  | gone _ calm => exact .nothing calm
  | message _ _ _ _ calm => exact .nothing calm
  | permission _ _ _ => exact .nothing (.refl _)
  | calls _ _ _ _ => exact .nothing (.refl _)
  | asked _ _ _ calm => exact .nothing calm
  | login _ waiting verified remembered _ decides =>
    exact .password waiting verified (remembered.moves.trans (.of_calm decides.calm))
  | code _ waiting awaiting required checked moves decides =>
    exact .code waiting awaiting required checked (moves.trans (.of_calm decides.calm))
  | approved _ _ decides => exact .nothing decides.calm
  | switched _ _ switches _ decides => exact .nothing (switches.calm.trans decides.calm)
  | again _ _ _ _ calm => exact .nothing calm
  | waives _ _ _ _ => exact .nothing (.refl _)
  | connected _ _ _ => exact .nothing (Shared.calm_authorize _ e _)

theorem Shares.uuids {ev : ConnEvent} (h : Shares k e sh c ev sh') {id : String} {v : Nat × Bytes}
    (hv : sh'.switchSidesUuid id = some v) : sh.switchSidesUuid id = some v := by
  cases h with
  | nothing calm => exact calm.uuids id v hv
  | password _ _ moves => exact moves.uuids id v hv
  | code _ _ _ _ moves => exact moves.uuids id v hv

/-- A switch-sides response that authorizes takes the uuid it was let in by. -/
theorem Turn.switch_taken {r : SwitchSidesResponse}
    (h : Turn k b e sh c (.recv (.switchSidesResponse r)) sh' c')
    (hun : c.login.authorized = false) (hauth : c'.login.authorized = true) :
    ∃ lr, r.lr = some lr ∧ sh'.switchSidesUuid lr.myId.1 = none ∧
      ∃ t, sh.switchSidesUuid lr.myId.1 = some (t, r.uuid) ∧ e.now - t < switchSidesUuidTtl := by
  cases h.enters hun hauth with
  | @switched _ lr _ _ _ _ _ switches _ decides =>
    refine ⟨lr, switches.request, ?_, switches.stored⟩
    cases hn : sh'.switchSidesUuid lr.myId.1 with
    | none => rfl
    | some v =>
      have := decides.calm.uuids _ _ hn
      rw [switches.taken] at this
      cases this

end Shared

/-! ## All connections -/

namespace World

variable {k : Crypto} {b : Build} {w w' : World}

/-- What a step of the world is. -/
inductive Steps (k : Crypto) (b : Build) (w : World) : Event → World → Prop
  | start (m : Meta) :
      Steps k b w (.start m) { w with conns := w.conns ++ [Conn.start w.conns.length m] }
  | conn {i : Nat} {e : Env} {ev : ConnEvent} {c c' : Conn} {sh' : Shared}
      (at_ : w.conns[i]? = some c) (turn : Turn k b e w.shared (c.clear e) ev sh' c') :
      Steps k b w (.conn i e ev) ⟨sh', w.conns.set i c'⟩
  | insertSwitchSidesUuid (now : Nat) (id : String) (uuid : Bytes) :
      Steps k b w (.insertSwitchSidesUuid now id uuid)
        { w with shared := w.shared.insertSwitchSidesUuid now id uuid }
  | updateTemporaryPassword (value : String) :
      Steps k b w (.updateTemporaryPassword value)
        { w with shared := { w.shared with temporaryPassword := value } }

def Wf (w : World) : Prop := ∀ (i : Nat) (c : Conn), w.conns[i]? = some c → c.Wf

theorem steps_of_step {ev : Event} (hwf : w.Wf) (h : step k b w ev = some w') : Steps k b w ev w' := by
  cases ev with
  | start m =>
    cases h
    exact .start m
  | conn i e ev =>
    simp only [step] at h
    split at h
    · cases h
    · rename_i c hc
      obtain ⟨r, hr, rfl⟩ := Option.map_eq_some_iff.1 h
      exact .conn hc (turn_of_connStep (hwf i c hc) hr)
  | insertSwitchSidesUuid now id uuid =>
    cases h
    exact .insertSwitchSidesUuid now id uuid
  | updateTemporaryPassword value =>
    cases h
    exact .updateTemporaryPassword value

theorem wf_start (id : Nat) (m : Meta) : (Conn.start id m).Wf :=
  ⟨fun _ _ => ⟨rfl, rfl, rfl, rfl⟩, fun h => (nomatch h), fun _ h => (nomatch h), fun h => (nomatch h)⟩

theorem getElem?_concat {l : List Conn} {j : Nat} {c c' : Conn} (h : (l ++ [c'])[j]? = some c) :
    (j = l.length ∧ c = c') ∨ l[j]? = some c := by
  rw [List.getElem?_append] at h
  split at h
  · exact .inr h
  · rename_i hlt
    rw [List.getElem?_singleton] at h
    split at h
    · cases h
      exact .inl ⟨by omega, rfl⟩
    · cases h

theorem wf_step {ev : Event} (hwf : w.Wf) (h : step k b w ev = some w') : w'.Wf := by
  intro j c' hc'
  cases steps_of_step hwf h with
  | start m =>
    rcases getElem?_concat hc' with ⟨-, rfl⟩ | hc'
    · exact wf_start _ m
    · exact hwf j c' hc'
  | conn hc turn =>
    rcases getElem?_set_eq_some hc' with ⟨-, rfl⟩ | ⟨-, hc'⟩
    · exact turn.wf ((hwf _ _ hc).clear _)
    · exact hwf j c' hc'
  | insertSwitchSidesUuid now id uuid => exact hwf j c' hc'
  | updateTemporaryPassword value => exact hwf j c' hc'

theorem wf_init (h : Init w) : w.Wf := by
  intro i c hc
  rw [h.1] at hc
  cases hc

/-- Every connection of every run is well-formed. -/
theorem wf_of_exec {h : List (World × Event)} (hx : Exec Init (step k b) h w) : w.Wf :=
  hx.invariant (fun _ => wf_init) fun _ _ _ hwf hstep => wf_step hwf hstep

end World

end FontisRemote.Connection
