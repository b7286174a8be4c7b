import FontisRemote.Connection.Authorization

/-!
# Who is published to

The guard of a connection through a whole run. A connection that is not authorized, or is authorized
as something else, must not be a subscriber of what a desktop session shows (`Conn.Published`). This
holds as long as no permission is switched on for a connection that is no desktop session (`Leaks`).
-/

namespace FontisRemote.Connection

open FontisRemote.Lib FontisRemote.Login
open FontisRemote.Video (VideoSource)

/-! ## What a turn does to the guard -/

/-- The options a session starts with if the turn starts it. -/
def ConnEvent.loginOptions (ev : ConnEvent) (l : Login) : Option OptionMessage :=
  match ev with
  | .recv (.loginRequest lr) => lr.option.or l.optionsInLogin
  | .recv (.switchSidesResponse r) =>
    match r.lr with
    | some lr => lr.option.or l.optionsInLogin
    | none => l.optionsInLogin
  | _ => l.optionsInLogin

/-- The turn may start a desktop session. -/
def ConnEvent.AsksDesktop (ev : ConnEvent) (c : Conn) : Prop :=
  match ev with
  | .recv (.loginRequest lr) => lr.union = none
  | .recv (.switchSidesResponse _) => True
  | .recv (.auth2fa _) | .authorize => c.scope.authConnType = .remote
  | _ => False

inductive GuardTurn (b : Build) (e : Env) (c : Conn) (ev : ConnEvent) (c' : Conn) : Prop
  | same (live : c'.phase ≠ .ended → c.phase ≠ .ended) (guard : c'.desk.guard = c.desk.guard)
  | gone (subs : c'.desk.subs = fun _ => false) (phase : c'.phase = .ended)
  | message {msg : Message} (event : ev = .recv msg) (running : c.phase = .running)
      (authorized : c.login.authorized = true)
      (handles : Desk.Handles b c.scope msg c.desk.guard c'.desk.guard)
  | permission {name : Permission} {enabled : Bool} (event : ev = .switchPermission name enabled)
      (running : c.phase = .running)
      (switch : c'.desk.guard = c.desk.guard.switch b c.login.authorized name enabled)
  | calls (running : c.phase = .running) (calls : c.desk.guard.Calls b c'.desk.guard)
  | begins (sc : SessionScope) (waiting : c.login.authorized = false) (live : c.phase ≠ .ended)
      (authorized : c'.login.authorized = true) (desktop : sc.authConnType = .remote → ev.AsksDesktop c)
      (begins : Desk.Begins b sc (appliedOptions b e sc (ev.loginOptions c.login))
        { c.desk.guard with authed := some sc.authConnType } c'.desk.guard)

section GuardTurn

variable {k : Crypto} {b : Build} {e : Env} {sh sh' : Shared} {c c' : Conn} {ev : ConnEvent}

theorem guard_grant {kont : Kont} (sh : Shared) (c : Conn) :
    Desk.Begins b c.scope (appliedOptions b e c.scope c.login.optionsInLogin)
      { c.desk.guard with authed := some c.scope.authConnType } (grant b e kont sh c).desk.guard := by
  have hnear := (Near.afterLogon kont ((c.authorize sh).beginSession b e)).guard
  unfold grant
  rw [hnear]
  exact begins_beginSession b e (c.authorize sh) rfl

theorem SessionScope.remote_of_opened {sc : SessionScope} {lr : LoginRequest}
    (h : (sc.opened lr).authConnType = .remote) : sc.authConnType = .remote := by
  have hrem := Desk.isRemote_of_authConnType _ h
  refine Desk.authConnType_of_isRemote ?_
  unfold SessionScope.opened at hrem
  split at hrem
  · simp [SessionScope.isRemote, SessionScope.isPortForward] at hrem
  · exact hrem

/-- Only a request for no kind of session in particular asks for a desktop. -/
theorem SessionScope.union_of_opened {sc : SessionScope} {lr : LoginRequest}
    (h : ((sc.requested lr).opened lr).authConnType = .remote) : lr.union = none := by
  have hrem := Desk.isRemote_of_authConnType _ h
  cases hu : lr.union with
  | none => rfl
  | some u =>
    cases u with
    | _ => simp [SessionScope.opened, SessionScope.requested, hu, SessionScope.isRemote,
        SessionScope.isPortForward] at hrem

theorem GuardTurn.decides {kont : Kont} {c₁ : Conn} (hd : Decides b e kont sh c₁ sh' c')
    (hguard : c₁.desk.guard = c.desk.guard) (hun : c.login.authorized = false)
    (hlive : c.phase ≠ .ended) (hopt : c₁.login.optionsInLogin = ev.loginOptions c.login)
    (hdesk : (c₁.scope.opened c₁.login.lr).authConnType = .remote → ev.AsksDesktop c) :
    GuardTurn b e c ev c' := by
  cases hd with
  | second _ near => exact .same (fun _ => hlive) (near.guard.trans hguard)
  | refused gone _ => exact .gone gone.subs gone.phase
  | waits _ _ _ near _ => exact .same (fun _ => hlive) (near.guard.trans hguard)
  | @granted sh₀ c₂ _ _ near _ =>
    obtain ⟨t, hlogin⟩ := near.login
    have hbegins := @guard_grant b e kont sh₀ c₂
    have hopt₂ : c₂.login.optionsInLogin = ev.loginOptions c.login := by
      rw [hlogin]
      exact hopt
    have hguard₂ : c₂.desk.guard = c.desk.guard := near.guard.trans hguard
    rw [hopt₂, hguard₂] at hbegins
    refine .begins _ hun hlive (grant_authorized sh₀ c₂) (fun hrem => hdesk ?_) hbegins
    rw [near.scope] at hrem
    exact hrem

theorem Turn.guard (h : Turn k b e sh c ev sh' c') (hwf : c.Wf) : GuardTurn b e c ev c' := by
  cases h with
  | quiet _ _ near _ => exact .same (near.phase ▸ id) near.guard
  | forwards running _ near _ => exact .same (fun _ => by simp [running]) near.guard
  | gone gone _ => exact .gone gone.subs gone.phase
  | message running authorized handles _ _ => exact .message rfl running authorized handles
  | permission running switch _ => exact .permission rfl running switch
  | calls running _ calls _ => exact .calls running calls
  | asked running _ took _ => exact .same (fun _ => by simp [running]) took.near.guard
  | login running waiting _ _ took decides =>
    obtain ⟨t, hlogin⟩ := took.near.login
    refine .decides decides took.near.guard waiting (by simp [running]) ?_ fun hrem => ?_
    · rw [hlogin]
      rfl
    · rw [took.near.scope, hlogin] at hrem
      exact SessionScope.union_of_opened hrem
  | code running waiting _ _ _ _ decides =>
    exact .decides decides rfl waiting (by simp [running]) rfl SessionScope.remote_of_opened
  | approved running waiting decides =>
    exact .decides decides rfl waiting (by simp [running]) rfl SessionScope.remote_of_opened
  | switched running waiting switches near decides =>
    obtain ⟨t, hlogin⟩ := near.login
    refine .decides decides near.guard waiting (by simp [running]) ?_ fun _ => trivial
    rw [hlogin]
    simp only [ConnEvent.loginOptions, switches.request]
    rfl
  | again running _ _ near _ => exact .same (fun _ => by simp [running]) near.guard
  | waives running _ _ near => exact .same (fun _ => by simp [running]) near.guard
  | @connected kont _ phase _ same =>
    have hbegins := @guard_grant b e kont sh c.connected
    have hauth : c'.login.authorized = true := by
      rw [same]
      exact grant_authorized sh c.connected
    refine .begins c.connected.scope (hwf.connecting kont phase).1 (by simp [phase]) hauth (fun hrem => ?_) ?_
    · have hpf := isPortForward_of_remote hrem
      cases hpf
    rw [same]
    exact hbegins

end GuardTurn

/-! ## Flags and subscriptions of a guard -/

/-- The type a connection has to be authorized as to be a subscriber of a service. -/
def Allowed (t : Option AuthConnType) : Service → Prop
  | .clipboard | .cursor | .monitor _ => t = some .remote
  | .camera _ => t = some .viewCamera
  | .fileClipboard | .audio | .pos | .windowFocus => t.isSome = true
  | .display | .printer => True

namespace Guard

variable {b : Build} {g g' : Guard}

/-- Only a desktop session has options of the peer's about the keyboard, the clipboard and the cursor. -/
def Plain (g : Guard) : Prop :=
  g.authed ≠ some .remote → g.showRemoteCursor = false ∧ g.disableKeyboard = false ∧
    g.disableClipboard = false ∧ g.enableFileTransfer = false

def Quiet (g : Guard) : Prop := ∀ s, g.subs s = true → Allowed g.authed s

theorem Quiet.subscribe {s : Service} {v : Bool} (h : g.Quiet)
    (hs : b.has s = true → v = true → Allowed g.authed s) : (g.subscribe b s v).Quiet := by
  intro s' hs'
  rw [subscribe_authed]
  by_cases he : s' = s
  · subst he
    cases hb : b.has s' with
    | false => exact h s' (by rwa [subscribe_of_not_has g hb] at hs')
    | true =>
      rcases g.subs_of_subscribe hs' with hv | hold
      · exact hs hb hv
      · exact h s' hold
  · rw [subscribe_subs_of_ne g he] at hs'
    exact h s' hs'

theorem Quiet.resub {s : Service} (h : g.Quiet)
    (hs : b.has s = true → g.wants b s = true → Allowed g.authed s) : (g.resub b s).Quiet :=
  h.subscribe hs

theorem Quiet.resubAudio (h : g.Quiet) (hs : g.authed.isSome = true) : (g.resubAudio b).Quiet := by
  unfold Guard.resubAudio
  split
  · split
    · exact h.resub fun _ _ => hs
    · exact h
  · exact h.resub fun _ _ => hs

/-- The flags of a guard without its subscriptions. -/
theorem Quiet.flags (h : g.Quiet) (hsubs : g'.subs = g.subs) (hauthed : g'.authed = g.authed) :
    g'.Quiet := by
  intro s hs
  rw [hauthed]
  exact h s (hsubs ▸ hs)

/-- Options of a desktop session open nothing it may not have. -/
theorem Quiet.options (h : g.Quiet) (ht : g.authed = some .remote) (o : OptionMessage) :
    (g.options b o).Quiet := by
  have hany : ∀ {g : Guard} {s : Service} {v : Bool}, g.authed = some .remote → g.Quiet →
      (∀ i, s ≠ .camera i) → (g.subscribe b s v).Quiet := by
    intro g s v ht hq hs
    refine hq.subscribe fun _ _ => ?_
    rw [ht]
    cases s with
    | camera i => exact absurd rfl (hs i)
    | _ => first | rfl | trivial
  have hboth : (g.options b o).authed = some .remote ∧ (g.options b o).Quiet := by
    refine options_induct (P := fun g => g.authed = some .remote ∧ g.Quiet) o ⟨ht, h⟩ ?_ ?_ ?_ ?_ ?_ ?_
    · rintro v g ⟨ht, hq⟩
      refine ⟨by simp [setShowRemoteCursor, ht], hany (by simp [ht]) (hany ht ?_ (by simp)) (by simp)⟩
      exact hq.flags rfl rfl
    · rintro v g ⟨ht, hq⟩
      exact ⟨by simp [setFollowRemoteWindow, ht], hany ht hq (by simp)⟩
    · rintro v g ⟨ht, hq⟩
      refine ⟨by simp [setDisableAudio, ht], Quiet.resubAudio (hq.flags rfl rfl) ?_⟩
      exact Option.isSome_of_eq_some ht
    · rintro v g ⟨ht, hq⟩
      exact ⟨by simp [setEnableFileTransfer, ht], hany ht (hq.flags rfl rfl) (by simp)⟩
    · rintro v g ⟨ht, hq⟩
      exact ⟨by simp [setDisableClipboard, ht], hany ht (hq.flags rfl rfl) (by simp)⟩
    · rintro v g ⟨ht, hq⟩
      refine ⟨by simp [setDisableKeyboard, ht], ?_⟩
      refine hany (by simp [ht]) (hany (by simp [ht]) (hany ht ?_ (by simp)) (by simp)) (by simp)
      exact hq.flags rfl rfl
  exact hboth.2

theorem resubAudio_eq (b : Build) (g : Guard) :
    g.resubAudio b = g ∨ ∃ v, g.resubAudio b = g.subscribe b .audio v := by
  unfold Guard.resubAudio
  split
  · split
    · exact .inr ⟨_, rfl⟩
    · exact .inl rfl
  · exact .inr ⟨_, rfl⟩

theorem Plain.of_remote (h : g.authed = some .remote) : g.Plain := fun hne => absurd h hne

/-- Nothing but the permissions and the subscriptions differs. -/
theorem Plain.flags (h : g.Plain) (hauthed : g'.authed = g.authed)
    (hshow : g'.showRemoteCursor = g.showRemoteCursor) (hkey : g'.disableKeyboard = g.disableKeyboard)
    (hclip : g'.disableClipboard = g.disableClipboard)
    (hfile : g'.enableFileTransfer = g.enableFileTransfer) : g'.Plain := by
  intro hne
  rw [hshow, hkey, hclip, hfile]
  exact h (hauthed ▸ hne)

theorem Plain.subscribe {s : Service} {v : Bool} (h : g.Plain) : (g.subscribe b s v).Plain :=
  h.flags (by simp) (by simp) (by simp) (by simp) (by simp)

theorem Plain.resubAudio (h : g.Plain) : (g.resubAudio b).Plain := by
  rcases resubAudio_eq b g with heq | ⟨v, heq⟩
  · rwa [heq]
  · rw [heq]
    exact h.subscribe

/-- The options of a limited session change the audio at most. -/
theorem options_limited {t : AuthConnType} {o s : OptionMessage}
    (h : scopedUpdateOptionMessage (some t) o = some s) :
    g.options b s = g.setDisableAudio b (setValue s.disableAudio) := by
  cases t with
  | remote => cases h
  | fileTransfer => cases h
  | portForward => cases h
  | viewCamera =>
    have h : (scopedViewCameraOption o).1 = some s := h
    rw [scopedViewCameraOption_fields h]
    simp [options, setValue, EnumOrUnknown.enumValue, BoolOption.set, setShowRemoteCursor,
      setFollowRemoteWindow, setEnableFileTransfer, setDisableClipboard, setDisableKeyboard]
  | terminal =>
    obtain ⟨v, -, -, rfl⟩ := scopedTerminalLoginOption_fields h
    simp [options, setValue, EnumOrUnknown.enumValue, BoolOption.set, setShowRemoteCursor,
      setFollowRemoteWindow, setEnableFileTransfer, setDisableClipboard, setDisableKeyboard]

theorem scopedLoginOption_limited {t : AuthConnType} {o s : OptionMessage} (ht : t ≠ .remote)
    (h : (scopedLoginOption t o).1 = some s) : scopedUpdateOptionMessage (some t) o = some s := by
  cases t with
  | remote => exact absurd rfl ht
  | fileTransfer => cases h
  | portForward => cases h
  | viewCamera => exact h
  | terminal => exact h

theorem Plain.setDisableAudio (h : g.Plain) (v : Option Bool) : (g.setDisableAudio b v).Plain := by
  cases v with
  | none => exact h
  | some v => exact Plain.resubAudio (h.flags rfl rfl rfl rfl rfl)

theorem Quiet.setDisableAudio (h : g.Quiet) (hs : g.authed.isSome = true) (v : Option Bool) :
    (g.setDisableAudio b v).Quiet := by
  cases v with
  | none => exact h
  | some v => exact Quiet.resubAudio (h.flags rfl rfl) hs

theorem Quiet.calls (h : g.Quiet) (hc : g.Calls b g') : g'.Quiet := by
  cases hc with
  | same => exact h
  | calls v => exact h.flags rfl rfl
  | audio type _ =>
    refine Quiet.subscribe (h.flags rfl rfl) fun _ _ => ?_
    exact Option.isSome_of_eq_some type

theorem Plain.calls (h : g.Plain) (hc : g.Calls b g') : g'.Plain := by
  cases hc with
  | same => exact h
  | calls v => exact h.flags rfl rfl rfl rfl rfl
  | audio type _ => exact Plain.subscribe (h.flags rfl rfl rfl rfl rfl)

theorem Quiet.shows {src : VideoSource} (h : g.Quiet) (hs : Desk.Shows src g g')
    (ht : (∀ i, Allowed g.authed (getServiceName src i))) (hsome : g.authed.isSome = true) : g'.Quiet := by
  intro s hsub
  rw [hs.authed]
  rcases hs.opened s hsub with hold | ⟨i, rfl⟩ | rfl
  · exact h s hold
  · exact ht i
  · exact hsome

theorem Plain.shows {src : VideoSource} (h : g.Plain) (hs : Desk.Shows src g g') : g'.Plain := by
  rw [hs.flags]
  exact h.flags rfl rfl rfl rfl rfl

theorem Quiet.starts (h : g.Quiet) (ht : g.authed = some .remote) (hs : Desk.Starts b g g') :
    g'.Quiet := by
  intro s hsub
  rw [hs.authed]
  cases s with
  | camera i => exact h _ (hs.cameras i ▸ hsub)
  | _ => first | exact ht | exact Option.isSome_of_eq_some ht | trivial

/-- The switch opens something to a connection that is no desktop session. -/
def Leak (b : Build) (g : Guard) (name : Permission) (enabled : Bool) : Prop :=
  g.authed ≠ some .remote ∧ enabled = true ∧
    match name with
    | .keyboard => b.has .cursor = true ∨
        b.has .clipboard = true ∧ g.clipboard = true ∧ b.oneWayClipboardRedirection = false
    | .clipboard =>
      b.has .clipboard = true ∧ g.keyboard = true ∧ b.oneWayClipboardRedirection = false
    | _ => False

theorem wants_clipboard : g.wants b .clipboard = true ↔ (g.clipboard = true ∧ g.disableClipboard = false) ∧
    (g.keyboard = true ∧ g.disableKeyboard = false) ∧ b.oneWayClipboardRedirection = false := by
  simp [wants, and_assoc]

theorem enabled_of_wants (h : g.wants b .fileClipboard = true) : g.enableFileTransfer = true := by
  simp only [wants, Bool.and_eq_true] at h
  exact h.1.2.2

theorem Quiet.switch_remote (h : g.Quiet) (ht : g.authed = some .remote) (authorized : Bool)
    (name : Permission) (enabled : Bool) : (g.switch b authorized name enabled).Quiet := by
  have hsome : g.authed.isSome = true := Option.isSome_of_eq_some ht
  cases name with
  | keyboard =>
    refine Quiet.subscribe (Quiet.resub (Quiet.resub (h.flags rfl rfl) fun _ _ => ht) fun _ _ => ?_)
      fun _ _ => ?_
    · simpa [Allowed] using hsome
    · simpa [Allowed] using ht
  | clipboard => exact Quiet.resub (h.flags rfl rfl) fun _ _ => ht
  | audio =>
    unfold Guard.switch
    dsimp only
    split
    · exact Quiet.resubAudio (h.flags rfl rfl) hsome
    · exact h.flags rfl rfl
  | file => exact Quiet.resub (h.flags rfl rfl) fun _ _ => hsome
  | restart | recording | blockInput | privacyMode => exact h

/-- A switch of a permission opens nothing to a connection exactly if it is not one of those. -/
theorem quiet_switch_iff (hp : g.Plain) (hq : g.Quiet) (authorized : Bool)
    (hauth : authorized = true → g.authed.isSome = true) (name : Permission) (enabled : Bool) :
    (g.switch b authorized name enabled).Quiet ↔ ¬g.Leak b name enabled := by
  by_cases ht : g.authed = some .remote
  · exact ⟨fun _ hleak => hleak.1 ht, fun _ => hq.switch_remote ht authorized name enabled⟩
  obtain ⟨hshow, hkey, hclip, hfile⟩ := hp ht
  cases name with
  | keyboard =>
    constructor
    · rintro hq' ⟨-, rfl, hcur | ⟨hhas, hc, how⟩⟩
      · have hsub : (g.switch b authorized .keyboard true).subs .cursor = true := by
          unfold Guard.switch
          dsimp only
          exact subscribe_subs_self _ hcur (.inl rfl)
        exact ht (by simpa [Allowed, switch_authed] using hq' _ hsub)
      · have hsub : (g.switch b authorized .keyboard true).subs .clipboard = true := by
          unfold Guard.switch
          dsimp only
          rw [subscribe_subs_of_ne _ (by decide), Guard.resub, subscribe_subs_of_ne _ (by decide)]
          exact resub_subs_self _ hhas (wants_clipboard.2 ⟨⟨hc, hclip⟩, ⟨rfl, hkey⟩, how⟩)
        exact ht (by simpa [Allowed, switch_authed] using hq' _ hsub)
    · intro hno
      refine Quiet.subscribe (Quiet.resub (Quiet.resub (hq.flags rfl rfl) fun hhas hw => ?_)
        fun _ hw => ?_) fun hhas hw => ?_
      · obtain ⟨⟨hc, -⟩, ⟨hen, -⟩, how⟩ := wants_clipboard.1 hw
        exact absurd ⟨ht, hen, .inr ⟨hhas, hc, how⟩⟩ hno
      · rw [Guard.resub, wants_subscribe] at hw
        exact absurd (hfile.symm.trans (enabled_of_wants hw)) (by simp)
      · have hen : enabled = true := by simpa [hshow] using hw
        exact absurd ⟨ht, hen, .inl hhas⟩ hno
  | clipboard =>
    constructor
    · rintro hq' ⟨-, rfl, hhas, hk, how⟩
      have hsub : (g.switch b authorized .clipboard true).subs .clipboard = true :=
        resub_subs_self _ hhas (wants_clipboard.2 ⟨⟨rfl, hclip⟩, ⟨hk, hkey⟩, how⟩)
      exact ht (by simpa [Allowed, switch_authed] using hq' _ hsub)
    · intro hno
      refine Quiet.resub (hq.flags rfl rfl) fun hhas hw => ?_
      obtain ⟨⟨hen, -⟩, ⟨hk, -⟩, how⟩ := wants_clipboard.1 hw
      exact absurd ⟨ht, hen, hhas, hk, how⟩ hno
  | audio =>
    refine ⟨fun _ hleak => hleak.2.2, fun _ => ?_⟩
    unfold Guard.switch
    dsimp only
    split
    · rename_i ha
      exact Quiet.resubAudio (hq.flags rfl rfl) (hauth ha)
    · exact hq.flags rfl rfl
  | file =>
    refine ⟨fun _ hleak => hleak.2.2, fun _ => Quiet.resub (hq.flags rfl rfl) fun _ hw => ?_⟩
    have hen := enabled_of_wants hw
    exact absurd (hfile.symm.trans hen) (by simp)
  | restart | recording | blockInput | privacyMode => exact ⟨fun _ hleak => hleak.2.2, fun _ => hq⟩

theorem Plain.switch (h : g.Plain) (authorized : Bool) (name : Permission) (enabled : Bool) :
    (g.switch b authorized name enabled).Plain := by
  cases name with
  | keyboard => exact Plain.subscribe (Plain.subscribe (Plain.subscribe (h.flags rfl rfl rfl rfl rfl)))
  | clipboard => exact Plain.subscribe (h.flags rfl rfl rfl rfl rfl)
  | audio =>
    unfold Guard.switch
    dsimp only
    split
    · exact Plain.resubAudio (h.flags rfl rfl rfl rfl rfl)
    · exact h.flags rfl rfl rfl rfl rfl
  | file => exact Plain.subscribe (h.flags rfl rfl rfl rfl rfl)
  | restart | recording | blockInput | privacyMode => exact h

end Guard

/-! ## Nothing is published to an unauthorized peer -/

section Published

open Guard

variable {k : Crypto} {b : Build} {e : Env} {sh sh' : Shared} {c c' : Conn} {ev : ConnEvent}
  {sc : SessionScope} {g g' : Guard} {msg : Message}

theorem allowed_video (sc : SessionScope) (ht : g.authed = some sc.authConnType)
    (htype : g.authed = some .remote ∨ g.authed = some .viewCamera) (i : Nat) :
    Allowed g.authed (getServiceName sc.videoSource i) := by
  rcases htype with htype | htype
  · have hrem : sc.authConnType = .remote := Option.some.inj (ht.symm.trans htype)
    have hsc := Desk.isRemote_of_authConnType sc hrem
    simp only [SessionScope.isRemote, Bool.and_eq_true, Bool.not_eq_true'] at hsc
    have hsrc : sc.videoSource = .monitor := by simp [SessionScope.videoSource, hsc.1.2]
    rw [hsrc]
    exact htype
  · have hcam : sc.authConnType = .viewCamera := Option.some.inj (ht.symm.trans htype)
    have hsrc : sc.videoSource = .camera := by
      unfold SessionScope.authConnType at hcam
      split_ifs at hcam with _ _ hv
      exact if_pos hv
    rw [hsrc]
    exact htype

theorem Guard.Quiet.handles (h : g.Quiet) (ht : g.authed = some sc.authConnType)
    (hh : Desk.Handles b sc msg g g') : g'.Quiet := by
  have hsome : g.authed.isSome = true := Option.isSome_of_eq_some ht
  cases hh with
  | same => exact h
  | shows type shows => exact h.shows shows (allowed_video sc ht type) hsome
  | starts type _ starts => exact h.starts type starts
  | options type _ => exact h.options type _
  | limited scoping =>
    rw [ht] at scoping
    rw [options_limited scoping]
    exact h.setDisableAudio hsome _
  | calls calls => exact h.calls calls

theorem Guard.Plain.handles (h : g.Plain) (ht : g.authed = some sc.authConnType)
    (hh : Desk.Handles b sc msg g g') : g'.Plain := by
  cases hh with
  | same => exact h
  | shows _ shows => exact h.shows shows
  | starts type _ starts => exact .of_remote (starts.authed.trans type)
  | options type _ => exact .of_remote ((g.options_authed _).trans type)
  | limited scoping =>
    rw [ht] at scoping
    rw [options_limited scoping]
    exact h.setDisableAudio _
  | calls calls => exact h.calls calls

/-- A connection that was subscribed to nothing is authorized. -/
theorem Guard.Quiet.authed (h : g.Quiet) (hnone : g.authed = none) (t : AuthConnType) :
    Guard.Quiet { g with authed := some t } := by
  intro s hs
  have hallowed := h s hs
  rw [hnone] at hallowed
  cases s with
  | display | printer => trivial
  | _ => cases hallowed

theorem setDisableAudio_authed (v : Option Bool) : (g.setDisableAudio b v).authed = g.authed := by
  cases v <;> simp [setDisableAudio]

theorem Desk.Begins.quiet {o : Option OptionMessage} (hb : Desk.Begins b sc o g g') (h : g.Quiet)
    (ht : g.authed = some sc.authConnType) : g'.Quiet := by
  have hsome : g.authed.isSome = true := Option.isSome_of_eq_some ht
  cases hb with
  | @remote g₁ _ type options starts =>
    rw [type] at ht
    have h₁ : g₁.Quiet ∧ g₁.authed = some .remote := by
      rcases options with rfl | ⟨o', -, rfl⟩
      · exact ⟨h, ht⟩
      · exact ⟨h.options ht o', (g.options_authed o').trans ht⟩
    rcases starts with rfl | ⟨-, starts⟩
    · exact h₁.1
    · exact h₁.1.starts h₁.2 starts
  | @other g₁ g₂ _ type options keyboard camera =>
    have h₁ : g₁.Quiet ∧ g₁.authed = g.authed := by
      rcases options with rfl | ⟨o', s, -, hs, rfl⟩
      · exact ⟨h, rfl⟩
      · rw [options_limited (scopedLoginOption_limited type hs)]
        exact ⟨h.setDisableAudio hsome _, setDisableAudio_authed _⟩
    have h₂ : g₂.Quiet := by
      rcases camera with rfl | ⟨htype, shows⟩
      · exact h₁.1
      · have hcam : g₁.authed = some .viewCamera := by rw [h₁.2, ht, htype]
        exact h₁.1.shows shows (fun _ => hcam) (Option.isSome_of_eq_some hcam)
    rcases keyboard with rfl | rfl
    · exact h₂
    · exact h₂.flags rfl rfl

theorem Desk.Begins.plain {o : Option OptionMessage} (hb : Desk.Begins b sc o g g') (h : g.Plain)
    (ht : g.authed = some sc.authConnType) : g'.Plain := by
  have hauthed := hb.authed
  cases hb with
  | remote type _ _ => exact .of_remote (by rw [hauthed, ht, type])
  | @other g₁ g₂ _ type options keyboard camera =>
    have h₁ : g₁.Plain := by
      rcases options with rfl | ⟨o', s, -, hs, rfl⟩
      · exact h
      · rw [options_limited (scopedLoginOption_limited type hs)]
        exact h.setDisableAudio _
    have h₂ : g₂.Plain := by
      rcases camera with rfl | ⟨-, shows⟩
      · exact h₁
      · exact h₁.shows shows
    rcases keyboard with rfl | rfl
    · exact h₂
    · exact h₂.flags rfl rfl rfl rfl rfl

theorem Decides.ended {kont : Kont} (hd : Decides b e kont sh c sh' c') (hrun : c.phase = .running)
    (hend : c'.phase = .ended) : c'.desk.subs = fun _ => false := by
  cases hd with
  | second _ near => exact absurd ((near.phase.trans hrun).symm.trans hend) (by simp)
  | refused gone _ => exact gone.subs
  | waits _ _ _ near _ => exact absurd (near.phase.symm.trans hend) (by simp)
  | granted _ _ near _ =>
    rw [grant_phase] at hend
    exact absurd ((near.phase.trans hrun).symm.trans hend) (by simp)

/-- A connection that has ended is a subscriber of nothing. -/
theorem Turn.ended (h : Turn k b e sh c ev sh' c')
    (hc : c.phase = .ended → c.desk.subs = fun _ => false) (hend : c'.phase = .ended) :
    c'.desk.subs = fun _ => false := by
  have hsame : ∀ {d}, c.phase = .running → c' = { c with desk := d } → c'.desk.subs = fun _ => false := by
    rintro d hrun rfl
    exact absurd (hrun.symm.trans hend) (by simp)
  cases h with
  | quiet _ _ near _ => exact (congrArg Guard.subs near.guard).trans (hc (near.phase.symm.trans hend))
  | forwards _ _ near _ => exact absurd (near.phase.symm.trans hend) (by simp)
  | gone gone _ => exact gone.subs
  | message running _ _ same _ => exact hsame running same
  | permission running _ same => exact hsame running same
  | calls running _ _ same => exact hsame running same
  | asked running _ took _ =>
    exact absurd ((took.near.phase.trans running).symm.trans hend) (by simp)
  | login running _ _ _ took decides => exact decides.ended (took.near.phase.trans running) hend
  | code running _ _ _ _ _ decides => exact decides.ended running hend
  | approved running _ decides => exact decides.ended running hend
  | switched running _ _ near decides => exact decides.ended (near.phase.trans running) hend
  | again running _ _ near _ => exact absurd ((near.phase.trans running).symm.trans hend) (by simp)
  | waives _ _ phase near =>
    have hph := near.phase.symm.trans hend
    rcases phase with rfl | rfl <;> cases hph
  | connected _ running _ => rcases running with h | h <;> rw [h] at hend <;> cases hend

/-- What holds of every connection, whatever is switched. -/
structure Conn.Tame (c : Conn) : Prop where
  plain : c.phase ≠ .ended → c.desk.guard.Plain
  ended : c.phase = .ended → c.desk.subs = fun _ => false

theorem Conn.Tame.clear (h : c.Tame) (e : Env) : (c.clear e).Tame := ⟨h.plain, h.ended⟩

/-- A connection that is let in was not authorized as anything. -/
theorem authed_none (hwf : c.Wf) (hun : c.login.authorized = false) (hlive : c.phase ≠ .ended) :
    c.desk.guard.authed = none := (hwf.waiting hun hlive).1

theorem authed_type (hwf : c.Wf) (hauth : c.login.authorized = true) (hlive : c.phase ≠ .ended) :
    c.desk.guard.authed = some c.scope.authConnType := (hwf.typed hauth hlive).1

/-- The guard of a connection before anything is shown to it. -/
theorem Guard.Plain.authed (h : g.Plain) (hnone : g.authed = none) (t : AuthConnType) :
    Guard.Plain { g with authed := some t } := fun _ => h (by simp [hnone])

theorem Conn.Tame.turn (h : c.Tame) (hwf : c.Wf) (ht : Turn k b e sh c ev sh' c') : c'.Tame where
  ended := ht.ended h.ended
  plain hlive := by
    cases ht.guard hwf with
    | same live guard => exact guard ▸ h.plain (live hlive)
    | gone _ phase => exact absurd phase hlive
    | message _ running authorized handles =>
      have hl : c.phase ≠ .ended := by simp [running]
      exact (h.plain hl).handles (authed_type hwf authorized hl) handles
    | permission _ running switch =>
      rw [switch]
      exact (h.plain (by simp [running])).switch _ _ _
    | calls running calls => exact (h.plain (by simp [running])).calls calls
    | begins sc waiting live _ _ begins =>
      have hnone := authed_none hwf waiting live
      exact begins.plain ((h.plain live).authed hnone sc.authConnType) rfl

/-- The turn is a switch that opens something to a connection that is no desktop session. -/
def Conn.Leaks (b : Build) (c : Conn) (ev : ConnEvent) : Prop :=
  c.phase = .running ∧ ∃ name enabled, ev = .switchPermission name enabled ∧
    c.desk.guard.Leak b name enabled

theorem Guard.Quiet.turn (h : c.desk.guard.Quiet) (htame : c.Tame) (hwf : c.Wf)
    (ht : Turn k b e sh c ev sh' c') (hleak : ¬c.Leaks b ev) : c'.desk.guard.Quiet := by
  cases ht.guard hwf with
  | same _ guard => exact guard ▸ h
  | gone subs _ =>
    intro s hs
    exact absurd (congrFun subs s ▸ hs : false = true) (by simp)
  | message _ running authorized handles =>
    exact h.handles (authed_type hwf authorized (by simp [running])) handles
  | @permission name enabled event running switch =>
    have hl : c.phase ≠ .ended := by simp [running]
    rw [switch]
    refine (quiet_switch_iff (htame.plain hl) h _ (fun ha => ?_) name enabled).2 fun hl => ?_
    · exact Option.isSome_of_eq_some (authed_type hwf ha hl)
    · exact hleak ⟨running, name, enabled, event, hl⟩
  | calls _ calls => exact h.calls calls
  | begins sc waiting live _ _ begins =>
    exact begins.quiet (h.authed (authed_none hwf waiting live) sc.authConnType) rfl

/-- The connection is a subscriber of what an unauthorized peer must not see only if it is authorized,
and as what it has to be. -/
def Conn.Guarded (c : Conn) : Prop :=
  ∀ s, c.desk.subs s = true →
    match s with
    | .clipboard | .cursor | .monitor _ => c.login.authorized = true ∧ c.desk.authed = some .remote
    | .camera _ => c.login.authorized = true ∧ c.desk.authed = some .viewCamera
    | .fileClipboard | .audio | .pos | .windowFocus => c.login.authorized = true
    | .display | .printer => True

theorem guarded_iff_quiet (hwf : c.Wf) (htame : c.Tame) : c.Guarded ↔ c.desk.guard.Quiet := by
  by_cases hend : c.phase = .ended
  · have hsubs := htame.ended hend
    constructor
    · intro _ s hs
      exact absurd (congrFun hsubs s ▸ hs : false = true) (by simp)
    · intro _ s hs
      exact absurd (congrFun hsubs s ▸ hs : false = true) (by simp)
  · have hauth : c.desk.authed.isSome = true ↔ c.login.authorized = true := by
      cases ha : c.login.authorized with
      | true =>
        have hty : c.desk.authed = some _ := authed_type hwf ha hend
        simp [hty]
      | false =>
        have hnone : c.desk.authed = none := authed_none hwf ha hend
        simp [hnone]
    have hsome : ∀ {t}, c.desk.authed = some t → c.login.authorized = true :=
      fun ht => hauth.1 (Option.isSome_of_eq_some ht)
    constructor
    · intro h s hs
      have hc := h s hs
      cases s with
      | clipboard | cursor | monitor _ | camera _ => exact hc.2
      | fileClipboard | audio | pos | windowFocus => exact hauth.2 hc
      | display | printer => trivial
    · intro h s hs
      have hq := h s hs
      cases s with
      | clipboard | cursor | monitor _ | camera _ => exact ⟨hsome hq, hq⟩
      | fileClipboard | audio | pos | windowFocus => exact hauth.1 hq
      | display | printer => trivial

end Published

/-! ## Runs -/

section Runs

variable {k : Crypto} {b : Build} {h : History} {w w' : World} {ev : Event}

/-- Every connection a run has brought about is tame. -/
theorem tame_of_exec (hx : Exec World.Init (World.step k b) h w) :
    ∀ (i : Nat) (c : Conn), w.conns[i]? = some c → c.Tame := by
  refine hx.induct (I := fun _ w => ∀ (i : Nat) (c : Conn), w.conns[i]? = some c → c.Tame) ?_ ?_
  · intro w hi i c hc
    rw [hi.1] at hc
    cases hc
  · intro h w ev w' hx htame hstep i c' hc'
    have hwf := World.wf_of_exec hx
    cases World.steps_of_step hwf hstep with
    | start m =>
      rcases World.getElem?_concat hc' with ⟨-, rfl⟩ | hc'
      · exact ⟨fun _ _ => ⟨rfl, rfl, rfl, rfl⟩, fun hend => (nomatch hend)⟩
      · exact htame i c' hc'
    | conn hc turn =>
      rcases getElem?_set_eq_some hc' with ⟨-, rfl⟩ | ⟨-, hc'⟩
      · exact ((htame _ _ hc).clear _).turn ((hwf _ _ hc).clear _) turn
      · exact htame i c' hc'
    | insertSwitchSidesUuid now id uuid => exact htame i c' hc'
    | updateTemporaryPassword value => exact htame i c' hc'

/-- Every connection is a subscriber of what it may be a subscriber of. -/
def World.Guarded (w : World) : Prop :=
  ∀ (i : Nat) (c : Conn), w.conns[i]? = some c → c.Guarded

/-- The connection manager switches a permission on for a connection that is not authorized as a
desktop session, and the switch subscribes it to the cursor or the clipboard. -/
def Leaks (b : Build) (w : World) (ev : Event) : Prop :=
  ∃ i e cev c, ev = .conn i e cev ∧ w.conns[i]? = some c ∧ c.Leaks b cev

theorem World.Guarded.step (hx : Exec World.Init (World.step k b) h w) (hg : w.Guarded)
    (hstep : World.step k b w ev = some w') (hleak : ¬Leaks b w ev) : w'.Guarded := by
  have hwf := World.wf_of_exec hx
  have hwf' := World.wf_of_exec (hx.snoc hstep)
  have htame := tame_of_exec hx
  have htame' := tame_of_exec (hx.snoc hstep)
  intro i c' hc'
  refine (guarded_iff_quiet (hwf' i c' hc') (htame' i c' hc')).2 ?_
  have hold : w.conns[i]? = some c' → c'.desk.guard.Quiet := fun hc =>
    (guarded_iff_quiet (hwf i c' hc) (htame i c' hc)).1 (hg i c' hc)
  cases World.steps_of_step hwf hstep with
  | start m =>
    rcases World.getElem?_concat hc' with ⟨-, rfl⟩ | hc'
    · exact fun s hs => (nomatch hs)
    · exact hold hc'
  | @conn j e cev c _ _ hc turn =>
    rcases getElem?_set_eq_some hc' with ⟨-, rfl⟩ | ⟨-, hc'⟩
    · have hq := (guarded_iff_quiet (hwf j c hc) (htame j c hc)).1 (hg j c hc)
      refine Guard.Quiet.turn (c := c.clear e) hq ((htame j c hc).clear e) ((hwf j c hc).clear e) turn
        fun hl => hleak ?_
      exact ⟨j, e, cev, c, rfl, hc, hl⟩
    · exact hold hc'
  | insertSwitchSidesUuid now id uuid => exact hold hc'
  | updateTemporaryPassword value => exact hold hc'

/-- After such a switch the connection is a subscriber of what it must not see. -/
theorem not_guarded_of_leaks (hx : Exec World.Init (World.step k b) h w) (hg : w.Guarded)
    (hstep : World.step k b w ev = some w') (hleak : Leaks b w ev) : ¬w'.Guarded := by
  obtain ⟨i, e, cev, c, rfl, hc, hrun, name, enabled, rfl, hl⟩ := hleak
  have hwf := World.wf_of_exec hx i c hc
  have htame := tame_of_exec hx i c hc
  have hwf' := World.wf_of_exec (hx.snoc hstep)
  have htame' := tame_of_exec (hx.snoc hstep)
  have hlive : c.phase ≠ .ended := by simp [hrun]
  intro hg'
  have hgo : connStep k b e (.switchPermission name enabled) w.shared c = some (w.shared,
      (c.clear e).onDesk (·.switchPermission b e.toPlatform c.login.authorized name enabled)) := by
    unfold connStep
    rw [show (c.onDesk fun d => { d with out := [], swapping := e.swapping }) = c.clear e from rfl]
    dsimp only
    rw [show (c.clear e).phase = .running from hrun]
    rfl
  simp only [World.step, hc, hgo, Option.map_some, Option.some.injEq] at hstep
  subst hstep
  have hlt : i < w.conns.length := (List.getElem?_eq_some_iff.1 hc).1
  have hc' : (w.conns.set i ((c.clear e).onDesk (·.switchPermission b e.toPlatform c.login.authorized name
      enabled)))[i]? = some ((c.clear e).onDesk (·.switchPermission b e.toPlatform c.login.authorized name
      enabled)) := by
    simp [hlt]
  have hquiet := (guarded_iff_quiet (hwf' i _ hc') (htame' i _ hc')).1 (hg' i _ hc')
  have hswitch := Desk.guard_switchPermission b (c.clear e).desk e.toPlatform c.login.authorized name enabled
  have hq := (guarded_iff_quiet hwf htame).1 (hg i c hc)
  refine (Guard.quiet_switch_iff (g := (c.clear e).desk.guard) (htame.plain hlive) hq c.login.authorized
    (fun ha => ?_) name enabled).1 ?_ hl
  · exact Option.isSome_of_eq_some (authed_type (c := c) hwf ha hlive)
  · exact hswitch ▸ hquiet

/-- In every run, every connection is at every moment a subscriber only of what it is authorized for,
exactly if no permission is switched on that opens the cursor or the clipboard to a connection that is
not authorized as a desktop session. -/
theorem guarded_iff_no_leak (hx : Exec World.Init (World.step k b) h w) :
    ((∀ p ∈ h, p.1.Guarded) ∧ w.Guarded) ↔ ∀ p ∈ h, ¬Leaks b p.1 p.2 := by
  induction hx with
  | start hi =>
    refine ⟨fun _ _ hp => (nomatch hp), fun _ => ⟨fun _ hp => (nomatch hp), fun i c hc => ?_⟩⟩
    rw [hi.1] at hc
    cases hc
  | @snoc h w w' ev hx hstep ih =>
    constructor
    · rintro ⟨hall, hg'⟩ p hp
      have hg := hall _ (List.mem_cons_self ..)
      rcases List.mem_cons.1 hp with rfl | hp
      · exact fun hleak => not_guarded_of_leaks hx hg hstep hleak hg'
      · exact ih.1 ⟨fun q hq => hall q (List.mem_cons_of_mem _ hq), hg⟩ p hp
    · intro hno
      obtain ⟨hall, hg⟩ := ih.2 fun p hp => hno p (List.mem_cons_of_mem _ hp)
      refine ⟨fun p hp => ?_, hg.step hx hstep (hno _ (List.mem_cons_self ..))⟩
      rcases List.mem_cons.1 hp with rfl | hp
      · exact hg
      · exact hall p hp

/-- A desktop session whose keyboard is switched on is shown the cursor, beside a peer that waits. -/
theorem guarded_iff_no_leak_off : ∃ w h c, Exec World.Init (World.step .unused .linux) h w ∧
    h.map Prod.snd = [.conn 1 { freshPassword := "3m7tdw" } (.switchPermission .keyboard false),
      .start .plain, .conn 0 { freshPassword := "3m7tdw" } (.switchPermission .keyboard true),
      .conn 0 { freshPassword := "3m7tdw" } .authorize, .start .plain] ∧
    (∀ p ∈ h, p.1.Guarded) ∧ w.Guarded ∧ w.conns[0]? = some c ∧ c.login.authorized = true ∧
    c.desk.subs .cursor = true ∧ c.desk.subs .clipboard = true := by
  have hstart : Exec World.Init (World.step .unused .linux) [(World.idle "8k2xq4", .start .plain)] _ :=
    .snoc (.start (World.init_idle "8k2xq4")) rfl
  have hauth := hstart.snoc (e := .conn 0 { freshPassword := "3m7tdw" } .authorize) rfl
  have hon := hauth.snoc
    (e := .conn 0 { freshPassword := "3m7tdw" } (.switchPermission .keyboard true)) rfl
  have hsecond := hon.snoc (e := .start .plain) rfl
  have hoff := hsecond.snoc
    (e := .conn 1 { freshPassword := "3m7tdw" } (.switchPermission .keyboard false)) rfl
  have hguarded := (guarded_iff_no_leak hoff).2 fun p hp => ?_
  · exact ⟨_, _, _, hoff, rfl, hguarded.1, hguarded.2, rfl, rfl, by decide +kernel, by decide +kernel⟩
  rintro ⟨i, e, cev, c, hev, hc, -, name, enabled, rfl, ht, hen, -⟩
  simp only [List.mem_cons, List.not_mem_nil, or_false] at hp
  rcases hp with rfl | rfl | rfl | rfl | rfl
  · cases hev
    cases hen
  · cases hev
  · cases hev
    cases hc
    exact ht rfl
  · cases hev
  · cases hev

/-- The keyboard is switched on for a peer that has not even asked to log in: it is shown the cursor
and the clipboard. -/
theorem keyboard_switch_leaks : ∃ w h c, Exec World.Init (World.step .unused .linux) h w ∧
    w.conns[0]? = some c ∧ c.login.authorized = false ∧ c.desk.subs .cursor = true ∧
    c.desk.subs .clipboard = true ∧ ¬w.Guarded := by
  have hstart : Exec World.Init (World.step .unused .linux) [(World.idle "8k2xq4", .start .plain)] _ :=
    .snoc (.start (World.init_idle "8k2xq4")) rfl
  have hon := hstart.snoc
    (e := .conn 0 { freshPassword := "3m7tdw" } (.switchPermission .keyboard true)) rfl
  refine ⟨_, _, _, hon, rfl, rfl, by decide, by decide, fun hg => ?_⟩
  exact absurd (hg 0 _ rfl .cursor (by decide)).1 (by decide)

end Runs

end FontisRemote.Connection
