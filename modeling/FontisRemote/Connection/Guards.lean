import FontisRemote.Connection.Logon

/-!
# Permissions and subscriptions

`Guard` is the desk as far as subscriptions go: the type the connection is authorized as, the
permissions of this side, the options of the peer's, and what the connection is subscribed to. On it a
handler is an assignment of some flags followed by `resub` of some services, where `wants` says what
each service's subscription should be. The theorems here say of every handler of the desk which
assignment and which services these are.
-/

namespace FontisRemote.Connection

open FontisRemote.Video (VideoSource)

structure Guard where
  authed : Option AuthConnType
  keyboard : Bool
  clipboard : Bool
  audio : Bool
  file : Bool
  showRemoteCursor : Bool
  disableKeyboard : Bool
  disableClipboard : Bool
  disableAudio : Bool
  enableFileTransfer : Bool
  servicesSubed : Bool
  voiceCalling : Bool
  subs : Service → Bool
  swapping : Service → Bool

namespace Guard

/-- What the subscription to a service should be, by the permissions and the options. Nothing guards
the services that are not listed. -/
def wants (b : Build) (g : Guard) : Service → Bool
  | .clipboard =>
    (g.clipboard && !g.disableClipboard) && (g.keyboard && !g.disableKeyboard) &&
      !b.oneWayClipboardRedirection
  | .fileClipboard =>
    (g.clipboard && !g.disableClipboard) && (g.file && g.enableFileTransfer) && !b.oneWayFileTransfer
  | .audio => g.audio && !g.disableAudio
  | .cursor => (g.keyboard && !g.disableKeyboard) || g.showRemoteCursor
  | .pos => g.showRemoteCursor
  | _ => true

/-- A revocation can be missed, once in a turn. -/
def subscribe (b : Build) (s : Service) (v : Bool) (g : Guard) : Guard :=
  if b.has s then
    if !v && g.subs s && g.swapping s then { g with swapping := Function.update g.swapping s false }
    else { g with subs := Function.update g.subs s v }
  else g

/-- Subscribe to a service or unsubscribe from it, as it should be. -/
def resub (b : Build) (s : Service) (g : Guard) : Guard := g.subscribe b s (g.wants b s)

/-- The audio of a camera session is for voice calls. -/
def resubAudio (b : Build) (g : Guard) : Guard :=
  if g.authed = some .viewCamera then
    if g.voiceCalling || !g.wants b .audio then g.resub b .audio else g
  else g.resub b .audio

/-! ## Options, on the guard -/

def setShowRemoteCursor (b : Build) (v : Option Bool) (g : Guard) : Guard :=
  match v with
  | some v => ({ g with showRemoteCursor := v }.resub b .cursor).resub b .pos
  | none => g

def setFollowRemoteWindow (b : Build) (v : Option Bool) (g : Guard) : Guard :=
  match v with
  | some v => g.subscribe b .windowFocus v
  | none => g

def setDisableAudio (b : Build) (v : Option Bool) (g : Guard) : Guard :=
  match v with
  | some v => { g with disableAudio := v }.resubAudio b
  | none => g

def setEnableFileTransfer (b : Build) (v : Option Bool) (g : Guard) : Guard :=
  match v with
  | some v => { g with enableFileTransfer := v }.resub b .fileClipboard
  | none => g

/-- The file clipboard is not looked at again. -/
def setDisableClipboard (b : Build) (v : Option Bool) (g : Guard) : Guard :=
  match v with
  | some v => { g with disableClipboard := v }.resub b .clipboard
  | none => g

def setDisableKeyboard (b : Build) (v : Option Bool) (g : Guard) : Guard :=
  match v with
  | some v =>
    (({ g with disableKeyboard := v }.resub b .clipboard).resub b .fileClipboard).resub b .cursor
  | none => g

def options (b : Build) (o : OptionMessage) (g : Guard) : Guard :=
  g |>.setShowRemoteCursor b (if b.mobile then none else setValue o.showRemoteCursor)
    |>.setFollowRemoteWindow b (setValue o.followRemoteWindow)
    |>.setDisableAudio b (setValue o.disableAudio)
    |>.setEnableFileTransfer b
      (if b.windows || b.unixFileCopyPaste then setValue o.enableFileTransfer else none)
    |>.setDisableClipboard b (setValue o.disableClipboard)
    |>.setDisableKeyboard b (setValue o.disableKeyboard)

/-! ## Permissions, on the guard -/

/-- The connection manager switches a permission. After a switch of the keyboard the cursor goes by
the permission alone, whatever the peer has disabled; after one of the clipboard the file clipboard
is not looked at again. -/
def switch (b : Build) (authorized : Bool) (name : Permission) (enabled : Bool) (g : Guard) : Guard :=
  match name with
  | .keyboard =>
    (({ g with keyboard := enabled }.resub b .clipboard).resub b .fileClipboard).subscribe b
      .cursor (enabled || g.showRemoteCursor)
  | .clipboard => { g with clipboard := enabled }.resub b .clipboard
  | .audio =>
    if authorized then { g with audio := enabled }.resubAudio b else { g with audio := enabled }
  | .file => { g with file := enabled }.resub b .fileClipboard
  | .restart | .recording | .blockInput | .privacyMode => g

/-- A voice call starts or ends; it is the audio of a camera session. -/
inductive Calls (b : Build) (g : Guard) : Guard → Prop
  | same : Calls b g g
  | calls (v : Bool) : Calls b g { g with voiceCalling := v }
  | audio {v w : Bool} (type : g.authed = some .viewCamera) (allowed : w = true → g.wants b .audio = true) :
      Calls b g ({ g with voiceCalling := v }.subscribe b .audio w)

variable {b : Build} {s t : Service} {v : Bool} (g : Guard)

theorem subscribe_of_not_has (h : b.has s = false) : g.subscribe b s v = g := if_neg (by simp [h])

/-- What subscribing or revoking can do: it is missed, nothing is built in, or it is done. -/
theorem subscribe_cases (b : Build) (s : Service) (v : Bool) (g : Guard) :
    g.subscribe b s v = g ∨
      g.subscribe b s v = { g with swapping := Function.update g.swapping s false } ∧
        v = false ∧ g.subs s = true ∧ g.swapping s = true ∨
      g.subscribe b s v = { g with subs := Function.update g.subs s v } := by
  unfold subscribe
  split
  · split
    · rename_i h
      simp only [Bool.and_eq_true, Bool.not_eq_true'] at h
      exact .inr (.inl ⟨rfl, h.1.1, h.1.2, h.2⟩)
    · exact .inr (.inr rfl)
  · exact .inl rfl

theorem subscribe_subs_of_ne (h : t ≠ s) : (g.subscribe b s v).subs t = g.subs t := by
  rcases g.subscribe_cases b s v with heq | ⟨heq, -⟩ | heq
  · rw [heq]
  · rw [heq]
  · rw [heq]
    exact Function.update_of_ne h _ _

/-- What is asked for is done, unless it is a revocation that is missed. -/
theorem subscribe_subs_self (h : b.has s = true) (hswap : v = true ∨ g.swapping s = false) :
    (g.subscribe b s v).subs s = v := by
  have hdone : ¬(!v && g.subs s && g.swapping s) = true := by
    rcases hswap with rfl | hswap
    · simp
    · simp [hswap]
  unfold subscribe
  rw [if_pos h, if_neg hdone]
  exact Function.update_self ..

theorem resub_subs_self (h : b.has s = true) (hw : g.wants b s = true) : (g.resub b s).subs s = true :=
  (g.subscribe_subs_self h (.inl hw)).trans hw

/-- A subscription that is left was asked for, or there before. -/
theorem subs_of_subscribe (hs : (g.subscribe b s v).subs s = true) :
    v = true ∨ g.subs s = true := by
  rcases g.subscribe_cases b s v with heq | ⟨-, -, hsub, -⟩ | heq
  · exact .inr (heq ▸ hs)
  · exact .inr hsub
  · rw [heq] at hs
    exact .inl ((Function.update_self ..).symm.trans hs)

theorem subscribe_swapping (h : g.swapping t = false) : (g.subscribe b s v).swapping t = false := by
  rcases g.subscribe_cases b s v with heq | ⟨heq, -⟩ | heq
  · rwa [heq]
  · rw [heq]
    by_cases hts : t = s
    · rw [hts]
      exact Function.update_self ..
    · exact (Function.update_of_ne hts _ _).trans h
  · rwa [heq]

section Fields

variable (b s v)

/-- Nothing but the subscription and what is missed of it changes. -/
theorem subscribe_eq : g.subscribe b s v =
    { g with subs := (g.subscribe b s v).subs, swapping := (g.subscribe b s v).swapping } := by
  rcases g.subscribe_cases b s v with heq | ⟨heq, -⟩ | heq <;> rw [heq]

@[simp] theorem subscribe_authed : (g.subscribe b s v).authed = g.authed := by rw [subscribe_eq]

@[simp] theorem subscribe_keyboard : (g.subscribe b s v).keyboard = g.keyboard := by rw [subscribe_eq]

@[simp] theorem subscribe_clipboard : (g.subscribe b s v).clipboard = g.clipboard := by rw [subscribe_eq]

@[simp] theorem subscribe_audio : (g.subscribe b s v).audio = g.audio := by rw [subscribe_eq]

@[simp] theorem subscribe_file : (g.subscribe b s v).file = g.file := by rw [subscribe_eq]

@[simp] theorem subscribe_showRemoteCursor :
    (g.subscribe b s v).showRemoteCursor = g.showRemoteCursor := by rw [subscribe_eq]

@[simp] theorem subscribe_disableKeyboard :
    (g.subscribe b s v).disableKeyboard = g.disableKeyboard := by rw [subscribe_eq]

@[simp] theorem subscribe_disableClipboard :
    (g.subscribe b s v).disableClipboard = g.disableClipboard := by rw [subscribe_eq]

@[simp] theorem subscribe_disableAudio : (g.subscribe b s v).disableAudio = g.disableAudio := by
  rw [subscribe_eq]

@[simp] theorem subscribe_enableFileTransfer :
    (g.subscribe b s v).enableFileTransfer = g.enableFileTransfer := by rw [subscribe_eq]

@[simp] theorem subscribe_servicesSubed : (g.subscribe b s v).servicesSubed = g.servicesSubed := by
  rw [subscribe_eq]

/-- What a service's subscription should be does not depend on what the subscriptions are. -/
@[simp] theorem wants_subscribe : (g.subscribe b s v).wants b t = g.wants b t := by
  rw [subscribe_eq]
  cases t <;> rfl

end Fields

/-! ## The type of the connection stays -/

@[simp] theorem resub_authed : (g.resub b s).authed = g.authed := subscribe_authed b s _ g

@[simp] theorem resubAudio_authed : (g.resubAudio b).authed = g.authed := by
  unfold resubAudio
  split
  · split
    · exact g.resub_authed
    · rfl
  · exact g.resub_authed

/-- What every field of an option message keeps if it is set, the whole message keeps. -/
theorem options_induct {P : Guard → Prop} {g : Guard} (o : OptionMessage) (h : P g)
    (hcursor : ∀ v g, P g → P (g.setShowRemoteCursor b (some v)))
    (hwindow : ∀ v g, P g → P (g.setFollowRemoteWindow b (some v)))
    (haudio : ∀ v g, P g → P (g.setDisableAudio b (some v)))
    (hfile : ∀ v g, P g → P (g.setEnableFileTransfer b (some v)))
    (hclip : ∀ v g, P g → P (g.setDisableClipboard b (some v)))
    (hkey : ∀ v g, P g → P (g.setDisableKeyboard b (some v))) : P (g.options b o) := by
  have hset : ∀ {f : Option Bool → Guard → Guard} (_ : ∀ v g, P g → P (f (some v) g))
      (_ : ∀ g, f none g = g) (v : Option Bool) (g : Guard), P g → P (f v g) := by
    intro f hf hnone v g hg
    cases v with
    | none => rwa [hnone]
    | some v => exact hf v g hg
  unfold options
  refine hset hkey (fun _ => rfl) _ _ (hset hclip (fun _ => rfl) _ _ ?_)
  refine hset hfile (fun _ => rfl) _ _ (hset haudio (fun _ => rfl) _ _ ?_)
  exact hset hwindow (fun _ => rfl) _ _ (hset hcursor (fun _ => rfl) _ _ h)

theorem options_authed (o : OptionMessage) : (g.options b o).authed = g.authed := by
  refine options_induct (P := fun g' => g'.authed = g.authed) o rfl ?_ ?_ ?_ ?_ ?_ ?_
  all_goals
    intro v g' h
    simp [setShowRemoteCursor, setFollowRemoteWindow, setDisableAudio, setEnableFileTransfer,
      setDisableClipboard, setDisableKeyboard, h]

theorem switch_authed (authorized : Bool) (name : Permission) (enabled : Bool) :
    (g.switch b authorized name enabled).authed = g.authed := by
  cases name <;> simp only [switch, subscribe_authed, resub_authed]
  split <;> simp

theorem Calls.authed {g g' : Guard} (h : g.Calls b g') : g'.authed = g.authed := by
  cases h with
  | same => rfl
  | calls v => rfl
  | audio _ _ => exact subscribe_authed ..

end Guard

namespace Desk

def guard (d : Desk) : Guard where
  authed := d.authed
  keyboard := d.keyboard
  clipboard := d.clipboard
  audio := d.audio
  file := d.file
  showRemoteCursor := d.showRemoteCursor
  disableKeyboard := d.disableKeyboard
  disableClipboard := d.disableClipboard
  disableAudio := d.disableAudio
  enableFileTransfer := d.enableFileTransfer
  servicesSubed := d.servicesSubed
  voiceCalling := d.voiceCalling
  subs := d.subs
  swapping := d.swapping

/-! ## What leaves the guard alone -/

section Same

variable (d : Desk)

@[simp] theorem guard_emit (x : Effect) : (d.emit x).guard = d.guard := rfl

@[simp] theorem guard_send (r : Reply) : (d.send r).guard = d.guard := rfl

@[simp] theorem guard_sendToCm (m : ToCm) : (d.sendToCm m).guard = d.guard := rfl

@[simp] theorem guard_sendFs (f : Fs) : (d.sendFs f).guard = d.guard := rfl

@[simp] theorem guard_addVideoService (s : Service) : (d.addVideoService s).guard = d.guard := rfl

@[simp] theorem guard_onClose (b : Build) (lock reconnected : Bool) :
    (d.onClose b lock reconnected).guard = d.guard := by
  unfold onClose
  dsimp only
  split_ifs <;> rfl

@[simp] theorem guard_onTestDelay (p : Platform) (time : Int) (fromClient : Bool) :
    (d.onTestDelay p time fromClient).guard = d.guard := by
  unfold onTestDelay
  split_ifs
  · rfl
  · split <;> rfl

@[simp] theorem guard_onScopeViolation (p : Platform) (family : String) :
    (d.onScopeViolation p family).guard = d.guard := by
  unfold onScopeViolation
  dsimp only
  split_ifs <;> rfl

@[simp] theorem guard_turnOnPrivacy (p : Platform) (implKey : String) :
    (d.turnOnPrivacy p implKey).guard = d.guard := by
  unfold turnOnPrivacy
  dsimp only
  split_ifs
  · rfl
  · rfl
  · rcases p.otherPrivacyImpl with _ | key <;> rcases p.turnOn with _ | _ | _ | (_ | _) | _ <;> simp

@[simp] theorem guard_turnOffPrivacy (p : Platform) (implKey : String) :
    (d.turnOffPrivacy p implKey).guard = d.guard := by
  unfold turnOffPrivacy
  split_ifs <;> rfl

@[simp] theorem guard_togglePrivacyMode (p : Platform) (implKey : String) (on : Bool) :
    (d.togglePrivacyMode p implKey on).guard = d.guard := by
  unfold togglePrivacyMode
  split_ifs <;> simp

@[simp] theorem guard_switchPrivacyMode (p : Platform) (enabled : Bool) :
    (d.switchPrivacyMode p enabled).guard = d.guard := by
  unfold switchPrivacyMode
  dsimp only
  split_ifs <;> rfl

@[simp] theorem guard_changeResolution (p : Platform) (display : Option Nat) (r : Resolution) :
    (d.changeResolution p display r).guard = d.guard := by
  unfold changeResolution
  dsimp only
  split_ifs <;> rfl

@[simp] theorem guard_sendDisplayChanged (p : Platform) (idx : Nat) :
    (d.sendDisplayChanged p idx).guard = d.guard := by
  unfold sendDisplayChanged
  split_ifs <;> rfl

@[simp] theorem guard_onMouseEvent (b : Build) (e : MouseEvent) :
    (d.onMouseEvent b e).guard = d.guard := by
  unfold onMouseEvent
  split_ifs <;> rfl

@[simp] theorem guard_onPointerDeviceEvent (b : Build) (body : Bytes) :
    (d.onPointerDeviceEvent b body).guard = d.guard := by
  unfold onPointerDeviceEvent
  split_ifs <;> rfl

@[simp] theorem guard_onKeyEvent (b : Build) (p : Platform) (e : KeyEvent) :
    (d.onKeyEvent b p e).guard = d.guard := by
  unfold onKeyEvent
  split_ifs
  all_goals try rfl
  split <;> rfl

@[simp] theorem guard_onClipboard (contents : List Bytes) :
    (d.onClipboard contents).guard = d.guard := by
  unfold onClipboard
  split_ifs <;> rfl

@[simp] theorem guard_onCliprdr (b : Build) (version : String) (c : Cliprdr) :
    (d.onCliprdr b version c).guard = d.guard := by
  have hserve : ∀ c, (d.serveClip b version c).guard = d.guard := by
    intro c
    unfold serveClip
    dsimp only
    split_ifs <;> rfl
  unfold onCliprdr
  split
  · rfl
  · split
    · rfl
    · split
      · rfl
      · exact hserve _
    · exact hserve _

@[simp] theorem guard_createAndStartReadJob (p : Platform) (type : JobType) (id : Int) :
    (d.createAndStartReadJob p type id).guard = d.guard := by
  unfold createAndStartReadJob
  split <;> rfl

@[simp] theorem guard_runFileAction (p : Platform) (overwriteDetection : Bool) (fa : FileAction) :
    (d.runFileAction p overwriteDetection fa).guard = d.guard := by
  cases fa with
  | readEmptyDirs path includeHidden => rfl
  | readDir path includeHidden => rfl
  | allFiles id path includeHidden =>
    unfold runFileAction
    dsimp only
    split
    · rfl
    · split <;> rfl
  | send id path includeHidden fileNum fileType =>
    unfold runFileAction sendFiles
    dsimp only
    split
    · split
      · rfl
      · exact guard_createAndStartReadJob d p _ _
    · split
      · exact guard_createAndStartReadJob _ p _ _
      · rfl
  | receive id path files fileNum totalSize => rfl
  | removeDir id path recursive => rfl
  | removeFile id path fileNum => rfl
  | create id path => rfl
  | cancel id =>
    unfold runFileAction
    dsimp only
    split <;> rfl
  | sendConfirm id fileNum skip offsetBlk =>
    unfold runFileAction
    dsimp only
    split
    · rfl
    · split <;> rfl
  | rename id path newName => rfl

theorem guard_refusedPath {d' : Desk} {p : Platform} {fa : FileAction}
    (h : d.refusedPath p fa = some d') : d'.guard = d.guard := by
  unfold refusedPath at h
  dsimp only at h
  split at h
  · split at h
    · cases h
      split <;> rfl
    · split at h
      · split at h
        · cases h
          split <;> rfl
        · cases h
      · cases h
  · cases h

@[simp] theorem guard_onFileAction (b : Build) (p : Platform) (sc : SessionScope) (version : String)
    (fa : Option FileAction) : (d.onFileAction b p sc version fa).guard = d.guard := by
  unfold onFileAction
  split
  · rfl
  split
  · split <;> rfl
  split
  · rfl
  split
  · rfl
  split
  · rename_i d' hd'
    split at hd'
    · exact guard_refusedPath d hd'
    · cases hd'
  · exact guard_runFileAction d p _ _

@[simp] theorem guard_onFileResponse (fr : Option FileResponse) :
    (d.onFileResponse fr).guard = d.guard := by
  unfold onFileResponse
  split <;> rfl

@[simp] theorem guard_onElevationRequest (p : Platform) (r : Option Elevation) :
    (d.onElevationRequest p r).guard = d.guard := by
  unfold onElevationRequest
  split
  · rfl
  · split_ifs <;> rfl

@[simp] theorem guard_handleTerminalAction (userToken : Bool) (action : Bytes) :
    (d.handleTerminalAction userToken action).guard = d.guard := by
  unfold handleTerminalAction
  dsimp only
  split_ifs <;> rfl

end Same

/-! ## Options -/

section Options

variable (b : Build) (o : OptionMessage) (d : Desk)

@[simp] theorem guard_subscribe (s : Service) (v : Bool) :
    (d.subscribe b s v).guard = d.guard.subscribe b s v := by
  unfold subscribe Guard.subscribe
  split
  · exact apply_ite guard _ _ _
  · rfl

/-- The options that are no business of the guard's. -/
theorem guard_applyOthers (p : Platform) (version serviceId : String) :
    (d.applyImageQuality o).guard = d.guard ∧ (d.applyCustomFps o).guard = d.guard ∧
    (d.applySupportedDecoding o).guard = d.guard ∧ (d.applyLockAfterSessionEnd o).guard = d.guard ∧
    (d.applyFollowRemoteCursor b o).guard = d.guard ∧
    (d.applyPrivacyMode p version o).guard = d.guard ∧ (d.applyBlockInput o).guard = d.guard ∧
    (d.applyTerminalPersistent b serviceId o).guard = d.guard ∧
    (d.applyShowMyCursor b p o).guard = d.guard := by
  refine ⟨?_, ?_, ?_, ?_, ?_, ?_, ?_, ?_, ?_⟩
  · unfold applyImageQuality
    split
    · rfl
    · dsimp only
      split_ifs <;> rfl
  · unfold applyCustomFps
    split_ifs <;> rfl
  · unfold applySupportedDecoding
    split <;> rfl
  · unfold applyLockAfterSessionEnd
    split <;> rfl
  · unfold applyFollowRemoteCursor
    split
    · rfl
    · split <;> rfl
  · unfold applyPrivacyMode
    split
    · split
      · split <;> simp
      · split <;> simp
      · rfl
    · rfl
  · unfold applyBlockInput
    split
    · split_ifs <;> rfl
    · rfl
  · unfold applyTerminalPersistent
    split
    · rfl
    · split <;> rfl
  · unfold applyShowMyCursor
    split
    · rfl
    · split
      · dsimp only
        split_ifs <;> rfl
      · dsimp only
        split_ifs <;> rfl
      · rfl

/-- A subscription that a handler sets to what it should be. -/
theorem guard_subscribe_wants {s : Service} {v : Bool} (h : v = d.guard.wants b s) :
    (d.subscribe b s v).guard = d.guard.resub b s := by
  rw [guard_subscribe, h]
  rfl

theorem guard_applyShowRemoteCursor : (d.applyShowRemoteCursor b o).guard =
    d.guard.setShowRemoteCursor b (if b.mobile then none else setValue o.showRemoteCursor) := by
  unfold applyShowRemoteCursor
  split
  · rfl
  · cases setValue o.showRemoteCursor with
    | some v =>
      exact (guard_subscribe_wants b _ rfl).trans
        (congrArg (Guard.resub b .pos) (guard_subscribe_wants b _ rfl))
    | none => rfl

theorem guard_applyFollowRemoteWindow : (d.applyFollowRemoteWindow b o).guard =
    d.guard.setFollowRemoteWindow b (setValue o.followRemoteWindow) := by
  unfold applyFollowRemoteWindow
  cases setValue o.followRemoteWindow with
  | some v => exact guard_subscribe b _ _ _
  | none => rfl

theorem guard_resubscribeAudio : (d.resubscribeAudio b).guard = d.guard.resubAudio b := by
  unfold resubscribeAudio Guard.resubAudio
  by_cases hcam : d.authed = some .viewCamera
  · have hd : d.isAuthedViewCameraConn = true := by simp [isAuthedViewCameraConn, hcam]
    have hg : d.guard.authed = some .viewCamera := hcam
    rw [if_pos hd, if_pos hg]
    by_cases hv : (d.voiceCalling || !d.audioEnabled) = true
    · rw [if_pos hv, if_pos (show (d.guard.voiceCalling || !d.guard.wants b .audio) = true from hv)]
      exact guard_subscribe_wants b d rfl
    · rw [if_neg hv, if_neg (show ¬(d.guard.voiceCalling || !d.guard.wants b .audio) = true from hv)]
  · have hd : ¬d.isAuthedViewCameraConn = true := by simp [isAuthedViewCameraConn, hcam]
    have hg : ¬d.guard.authed = some .viewCamera := hcam
    rw [if_neg hd, if_neg hg]
    exact guard_subscribe_wants b d rfl

theorem guard_applyDisableAudio :
    (d.applyDisableAudio b o).guard = d.guard.setDisableAudio b (setValue o.disableAudio) := by
  unfold applyDisableAudio
  cases setValue o.disableAudio with
  | some v => exact guard_resubscribeAudio b _
  | none => rfl

theorem guard_applyEnableFileTransfer : (d.applyEnableFileTransfer b o).guard =
    d.guard.setEnableFileTransfer b
      (if b.windows || b.unixFileCopyPaste then setValue o.enableFileTransfer else none) := by
  unfold applyEnableFileTransfer
  by_cases hbuilt : (b.windows || b.unixFileCopyPaste) = true
  · rw [if_neg (by simp [hbuilt]), if_pos hbuilt]
    cases setValue o.enableFileTransfer with
    | none => rfl
    | some v =>
      dsimp only [Guard.setEnableFileTransfer]
      by_cases hunix : b.unixFileCopyPaste = true
      · rw [if_pos hunix]
        refine (guard_subscribe_wants b _ rfl).trans (congrArg (Guard.resub b .fileClipboard) ?_)
        split_ifs <;> rfl
      · have hno : b.has .fileClipboard = false := by simp [Build.has, hunix]
        rw [if_neg hunix, Guard.resub, Guard.subscribe_of_not_has _ hno]
        split <;> rfl
  · rw [if_pos (by simp [hbuilt]), if_neg hbuilt]
    rfl

theorem guard_applyDisableClipboard :
    (d.applyDisableClipboard b o).guard =
      d.guard.setDisableClipboard b (setValue o.disableClipboard) := by
  unfold applyDisableClipboard
  cases setValue o.disableClipboard with
  | some v => exact guard_subscribe_wants b _ rfl
  | none => rfl

/-- A file clipboard that is not built in is nobody's subscription. -/
theorem guard_resub_fileClipboard :
    (if b.unixFileCopyPaste then d.subscribe b .fileClipboard (d.canSubFileClipboardService b)
      else d).guard = d.guard.resub b .fileClipboard := by
  split
  · exact guard_subscribe_wants b d rfl
  · rename_i hunix
    have hno : b.has .fileClipboard = false := by simp [Build.has, hunix]
    rw [Guard.resub, Guard.subscribe_of_not_has _ hno]

theorem guard_applyDisableKeyboard :
    (d.applyDisableKeyboard b o).guard =
      d.guard.setDisableKeyboard b (setValue o.disableKeyboard) := by
  unfold applyDisableKeyboard
  cases setValue o.disableKeyboard with
  | some v =>
    refine (guard_subscribe_wants b _ rfl).trans (congrArg (Guard.resub b .cursor) ?_)
    refine (guard_resub_fileClipboard b _).trans (congrArg (Guard.resub b .fileClipboard) ?_)
    exact guard_subscribe_wants b _ rfl
  | none => rfl

/-- `update_options`, seen from the guard. -/
theorem guard_updateOptions (p : Platform) (version serviceId : String) :
    (d.updateOptions b p version serviceId o).guard = d.guard.options b o := by
  have others := fun d : Desk => guard_applyOthers b o d p version serviceId
  unfold updateOptions Guard.options
  rw [(others _).2.2.2.2.2.2.2.2, (others _).2.2.2.2.2.2.2.1, (others _).2.2.2.2.2.2.1,
    (others _).2.2.2.2.2.1, guard_applyDisableKeyboard, guard_applyDisableClipboard,
    guard_applyEnableFileTransfer, guard_applyDisableAudio, guard_applyFollowRemoteWindow,
    (others _).2.2.2.2.1, guard_applyShowRemoteCursor, (others _).2.2.2.1, (others _).2.2.1,
    (others _).2.1, (others _).1]

end Options

/-! ## Permissions, voice calls and displays -/

section Permissions

variable (b : Build) (d : Desk)

theorem guard_switchKeyboard (enabled : Bool) :
    (d.switchKeyboard b enabled).guard = d.guard.switch b false .keyboard enabled := by
  unfold switchKeyboard
  dsimp only
  generalize hd₁ : Desk.subscribe b _ .clipboard _ = d₁
  have h₁ : d₁.guard = { d.guard with keyboard := enabled }.resub b .clipboard :=
    hd₁ ▸ guard_subscribe_wants b _ rfl
  have h₂ := guard_resub_fileClipboard b d₁
  rw [h₁] at h₂
  have hshow := congrArg Guard.showRemoteCursor h₂
  simp only [Guard.resub, Guard.subscribe_showRemoteCursor] at hshow
  rw [guard_subscribe, h₂]
  exact congrArg (fun x => Guard.subscribe b .cursor (enabled || x) _) hshow

theorem guard_switchFile (enabled : Bool) :
    (d.switchFile b enabled).guard = { d.guard with file := enabled }.resub b .fileClipboard := by
  unfold switchFile
  dsimp only
  by_cases hunix : b.unixFileCopyPaste = true
  · rw [if_pos hunix]
    refine (guard_subscribe_wants b _ rfl).trans (congrArg (Guard.resub b .fileClipboard) ?_)
    split <;> rfl
  · have hno : b.has .fileClipboard = false := by simp [Build.has, hunix]
    rw [if_neg hunix, Guard.resub, Guard.subscribe_of_not_has _ hno]
    rfl

/-- `SwitchPermission`, seen from the guard. -/
theorem guard_switchPermission (p : Platform) (authorized : Bool) (name : Permission)
    (enabled : Bool) : (d.switchPermission b p authorized name enabled).guard =
      d.guard.switch b authorized name enabled := by
  cases name with
  | keyboard => exact guard_switchKeyboard b d enabled
  | clipboard => exact guard_subscribe_wants b _ rfl
  | audio =>
    cases authorized with
    | true => exact guard_resubscribeAudio b _
    | false => rfl
  | file => exact guard_switchFile b d enabled
  | restart => rfl
  | recording => rfl
  | blockInput => rfl
  | privacyMode => exact guard_switchPrivacyMode d p enabled

theorem calls_handleVoiceCall (accepted : Bool) :
    Guard.Calls b d.guard (d.handleVoiceCall b accepted).guard := by
  unfold handleVoiceCall
  split
  · have hsub : ∀ d' : Desk, d'.guard = { d.guard with voiceCalling := accepted } →
        Guard.Calls b d.guard (if d'.isAuthedViewCameraConn then
          d'.subscribe b .audio (d'.audioEnabled && accepted) else d').guard := by
      intro d' hd'
      have hauthed : d'.authed = d.guard.authed := congrArg Guard.authed hd'
      have hw : d'.audioEnabled = d.guard.wants b .audio := congrArg (Guard.wants b · .audio) hd'
      split
      · rename_i hcam
        rw [guard_subscribe, hd', hw]
        exact .audio (hauthed ▸ of_decide_eq_true hcam) (by simp +contextual)
      · rw [hd']
        exact .calls accepted
    refine hsub _ ?_
    cases accepted <;> rfl
  · exact .same

theorem calls_closeVoiceCall : Guard.Calls b d.guard (d.closeVoiceCall b).guard := by
  unfold closeVoiceCall
  dsimp only
  split
  · rename_i hcam
    rw [guard_subscribe]
    exact .audio (of_decide_eq_true hcam) (by simp)
  · exact .calls false

end Permissions

/-- The displays or cameras of a session are opened and closed. -/
structure Shows (src : VideoSource) (g g' : Guard) : Prop where
  flags : g' = { g with subs := g'.subs, swapping := g'.swapping }
  opened : ∀ s, g'.subs s = true → g.subs s = true ∨ (∃ i, s = getServiceName src i) ∨ s = .windowFocus
  others : ∀ s, s.isVideo = false → s ≠ .windowFocus → g'.subs s = g.subs s
  swaps : ∀ s, g.swapping s = false → g'.swapping s = false

/-- The services of a desktop are subscribed to, as far as they should be. -/
structure Starts (b : Build) (g g' : Guard) : Prop where
  flags : g' = { g with servicesSubed := true, subs := g'.subs }
  cameras : ∀ i, g'.subs (.camera i) = g.subs (.camera i)
  guarded : ∀ s, s ∈ [Service.clipboard, .fileClipboard, .audio, .cursor] → b.has s = true →
    g'.subs s = (g.wants b s || g.subs s)

section Displays

variable {src : VideoSource} {g g' g₁ : Guard}

theorem Shows.refl (g : Guard) : Shows src g g := ⟨rfl, fun _ h => .inl h, fun _ _ _ => rfl, fun _ h => h⟩

theorem Shows.authed (h : Shows src g g') : g'.authed = g.authed := by
  rw [h.flags]

theorem Starts.authed {b : Build} (h : Starts b g g') : g'.authed = g.authed := by
  rw [h.flags]

theorem Shows.trans (h1 : Shows src g g') (h2 : Shows src g' g₁) : Shows src g g₁ where
  flags := by
    have hf := h2.flags
    rw [h1.flags] at hf
    exact hf
  opened s hs := by
    rcases h2.opened s hs with h | h
    · exact h1.opened s h
    · exact .inr h
  others s hv hw := (h2.others s hv hw).trans (h1.others s hv hw)
  swaps s hs := h2.swaps s (h1.swaps s hs)

theorem service_isVideo (src : VideoSource) (i : Nat) : (getServiceName src i).isVideo = true := by
  cases src <;> rfl

theorem Shows.subscribe_video (b : Build) (g : Guard) (i : Nat) (v : Bool) :
    Shows src g (g.subscribe b (getServiceName src i) v) where
  flags := g.subscribe_eq b _ v
  swaps _ hs := g.subscribe_swapping hs
  opened s hs := by
    by_cases h : s = getServiceName src i
    · exact .inr (.inl ⟨i, h⟩)
    · exact .inl (g.subscribe_subs_of_ne h ▸ hs)
  others s hv _ := by
    refine g.subscribe_subs_of_ne ?_
    rintro rfl
    rw [service_isVideo] at hv
    cases hv

theorem Shows.subscribe_windowFocus (b : Build) (g : Guard) (v : Bool) :
    Shows src g (g.subscribe b .windowFocus v) where
  flags := g.subscribe_eq b _ v
  swaps _ hs := g.subscribe_swapping hs
  opened s hs := by
    by_cases h : s = .windowFocus
    · exact .inr (.inr h)
    · exact .inl (g.subscribe_subs_of_ne h ▸ hs)
  others s _ hw := g.subscribe_subs_of_ne hw

variable (b : Build) (p : Platform) (sc : SessionScope) (d : Desk)

theorem shows_subscribe_video (i : Nat) (v : Bool) :
    Shows src d.guard (d.subscribe b (getServiceName src i) v).guard := by
  rw [guard_subscribe]
  exact .subscribe_video b _ i v

theorem shows_subscribe_windowFocus (v : Bool) :
    Shows src d.guard (d.subscribe b .windowFocus v).guard := by
  rw [guard_subscribe]
  exact .subscribe_windowFocus b _ v

theorem shows_handleSwitchDisplay (version : String) (display width height : Int) :
    Shows sc.videoSource d.guard (d.handleSwitchDisplay b p sc version display width height).guard := by
  unfold handleSwitchDisplay
  dsimp only
  split
  · exact .refl _
  split
  · exact .refl _
  · rename_i d' hd'
    have hto : Shows sc.videoSource d.guard d'.guard := by
      unfold switchDisplayTo at hd'
      split at hd'
      · cases hd'
      · cases hd'
        split
        · exact (shows_subscribe_video b (d.addVideoService _) d.displayIdx false).trans
            (shows_subscribe_video b _ _ true)
        · exact shows_subscribe_video b (d.addVideoService _) _ true
    rw [guard_sendDisplayChanged]
    split
    · rw [guard_changeResolution]
      exact hto
    · exact hto

theorem shows_captureServices (displays : List Nat) (incl excl : Bool) :
    Shows src d.guard (d.captureServices src displays incl excl).guard where
  flags := rfl
  opened s hs := by
    simp only [captureServices, guard] at hs
    split_ifs at hs with hv hc hi
    · obtain ⟨i, -, rfl⟩ := List.mem_map.1 (List.contains_iff_mem.1 hc)
      exact .inr (.inl ⟨i, rfl⟩)
    · exact .inl hs
    · exact .inl (Bool.and_eq_true_iff.1 hs).1
    · exact .inl hs
    · exact .inl hs
  others s hv _ := by
    simp [captureServices, guard, hv]
  swaps s hs := by
    have hs : d.swapping s = false := hs
    simp [captureServices, guard, hs]

theorem guard_addVideoServices (l : List Nat) :
    (l.foldl (fun d i => d.addVideoService (getServiceName src i)) d).guard = d.guard := by
  induction l generalizing d with
  | nil => rfl
  | cons i l ih => exact (ih _).trans (guard_addVideoService d _)

theorem shows_captureDisplays (add sub set : List Int) :
    Shows sc.videoSource d.guard (d.captureDisplays b p sc add sub set).guard := by
  unfold captureDisplays
  dsimp only
  split
  · exact .refl _
  · generalize hd₁ : List.foldl _ d _ = d₁
    have h₁ : d₁.guard = d.guard := hd₁ ▸ guard_addVideoServices d _
    have h₂ : ∀ d₂ : Desk, Shows sc.videoSource d₁.guard d₂.guard →
        Shows sc.videoSource d.guard (if d₂.followRemoteWindow then
          ({ d₂ with multiUiSession := decide (1 < d₂.video.countP d₂.isSubed) } : Desk).subscribe b
            .windowFocus (!decide (1 < d₂.video.countP d₂.isSubed))
          else { d₂ with multiUiSession := decide (1 < d₂.video.countP d₂.isSubed) }).guard := by
      intro d₂ h
      rw [h₁] at h
      split
      · exact h.trans (shows_subscribe_windowFocus b
          { d₂ with multiUiSession := decide (1 < d₂.video.countP d₂.isSubed) } _)
      · exact h
    refine h₂ _ ?_
    split_ifs <;> exact shows_captureServices d₁ _ _ _

theorem guard_addCameraConnection (exists_ : Bool) :
    Shows .camera d.guard (d.addCameraConnection b exists_).guard := by
  unfold addCameraConnection
  split
  · have hshows : Shows .camera (d.addVideoService (.camera 0)).guard _ := shows_subscribe_video b _ 0 true
    exact hshows
  · exact .refl _

theorem mem_if_singleton {c : Prop} [Decidable c] {s t : Service} :
    s ∈ (if c then [t] else []) ↔ c ∧ s = t := by
  split <;> simp [*]

theorem starts_trySubMonitorServices (isRemote : Bool) :
    (d.trySubMonitorServices b isRemote).guard = d.guard ∨
      isRemote = true ∧ d.guard.servicesSubed = false ∧
        Starts b d.guard (d.trySubMonitorServices b isRemote).guard := by
  unfold trySubMonitorServices
  split
  · rename_i h
    simp only [Bool.and_eq_true, Bool.not_eq_true'] at h
    refine .inr ⟨h.1, h.2, rfl, ?_, ?_⟩
    · intro i
      simp [addMonitorConnection, guard, Service.isVideo]
    · intro s hs hb
      have hadd : ∀ l : List Service, (s ∈ l ↔ d.guard.wants b s = false) → s.isVideo = false →
          (({ d with servicesSubed := true } : Desk).addMonitorConnection b l).guard.subs s =
            (d.guard.wants b s || d.guard.subs s) := by
        intro l hl hv
        have hc : l.contains s = !d.guard.wants b s := by
          cases hw : d.guard.wants b s with
          | false => simpa using hl.2 hw
          | true => simpa using fun hmem => by simpa [hw] using hl.1 hmem
        simp only [addMonitorConnection, guard, hv, hb, hc, Bool.false_and, Bool.true_and]
        cases d.guard.wants b s <;> simp
      have hunix : s = .fileClipboard → b.unixFileCopyPaste = true := by
        rintro rfl
        simp only [Build.has, Bool.and_eq_true] at hb
        exact hb.2
      simp only [List.mem_cons, List.not_mem_nil, or_false] at hs
      rcases hs with rfl | rfl | rfl | rfl <;> refine hadd _ ?_ rfl
      all_goals simp only [List.mem_append, mem_if_singleton, reduceCtorEq, and_false, or_false,
        false_or, and_true, Bool.not_eq_true', Bool.and_eq_true]
      · exact Iff.rfl
      · simp only [hunix rfl, true_and]
        exact Iff.rfl
      · exact Iff.rfl
      · exact (Bool.or_eq_false_iff (x := d.peerKeyboardEnabled) (y := d.showRemoteCursor)).symm
  · exact .inl rfl

end Displays

/-! ## Messages -/

/-- What a message does to the guard of a connection whose type lets it through. -/
inductive Handles (b : Build) (sc : SessionScope) (msg : Message) (g : Guard) : Guard → Prop
  | same : Handles b sc msg g g
  | shows {g' : Guard} (type : g.authed = some .remote ∨ g.authed = some .viewCamera)
      (shows : Shows sc.videoSource g g') : Handles b sc msg g g'
  | starts {g' : Guard} (type : g.authed = some .remote) (fresh : g.servicesSubed = false)
      (starts : Starts b g g') : Handles b sc msg g g'
  | options {o : OptionMessage} (type : g.authed = some .remote)
      (message : msg = .misc (some (.option o))) : Handles b sc msg g (g.options b o)
  | limited {o s : OptionMessage} (scoping : scopedUpdateOptionMessage g.authed o = some s) :
      Handles b sc msg g (g.options b s)
  | calls {g' : Guard} (calls : g.Calls b g') : Handles b sc msg g g'

section Messages

variable {b : Build} {p : Platform} {sc : SessionScope} {lr : LoginRequest} {d : Desk}

theorem Handles.authed {msg : Message} {g g' : Guard} (h : Handles b sc msg g g') :
    g'.authed = g.authed := by
  cases h with
  | same => rfl
  | shows _ shows => exact shows.authed
  | starts _ _ starts => exact starts.authed
  | options _ _ => exact g.options_authed _
  | limited _ => exact g.options_authed _
  | calls calls => exact calls.authed

theorem Handles.of_eq {msg : Message} {g g' : Guard} (h : g' = g) : Handles b sc msg g g' := h ▸ .same

/-- The types that may be sent what opens a display. -/
theorem shows_type {m : Misc}
    (hm : (∃ i w h, m = .switchDisplay i w h) ∨ ∃ a s t, m = .captureDisplays a s t)
    (hgate : authorizedScopeViolation b.windows d.authed (.misc (some m)) = none) :
    d.guard.authed = some .remote ∨ d.guard.authed = some .viewCamera := by
  cases ha : d.authed with
  | none =>
    rcases hm with ⟨i, w, h, rfl⟩ | ⟨a, s, t, rfl⟩ <;>
      simp [authorizedScopeViolation, ha, isConnectionHousekeepingMessage] at hgate
  | some t =>
    cases t with
    | remote => exact .inl ha
    | viewCamera => exact .inr ha
    | fileTransfer | portForward | terminal =>
      rcases hm with ⟨i, w, h, rfl⟩ | ⟨a, s, t, rfl⟩ <;>
        simp [authorizedScopeViolation, authorizedMessageScopeViolation, ha,
          isConnectionHousekeepingMessage, isNoopCompat, isRenderBroadcastNoopCompatMessage,
          isTextClipboardNoopCompatMessage, isAllowed, isFileTransferScopedMessage,
          isPortForwardScopedMessage, isTerminalScopedMessage] at hgate

theorem authConnType_of_isRemote (h : sc.isRemote = true) : sc.authConnType = .remote := by
  simp only [SessionScope.isRemote, Bool.and_eq_true, Bool.not_eq_true', Option.isNone_iff_eq_none] at h
  simp [SessionScope.authConnType, h.1.1.1, h.1.1.2, h.1.2, h.2]

theorem videoSource_of_viewCamera (h : sc.viewCamera = true) : sc.videoSource = .camera := if_pos h

/-- A port forward has no session of another user to choose. -/
theorem not_portForward_selectedSid {sid : Nat}
    (hgate : authorizedScopeViolation b.windows d.authed (.misc (some (.selectedSid sid))) = none) :
    d.authed ≠ some .portForward := by
  intro ha
  simp [authorizedScopeViolation, authorizedMessageScopeViolation, ha,
    isConnectionHousekeepingMessage, isNoopCompat, isRenderBroadcastNoopCompatMessage, isAllowed,
    isPortForwardScopedMessage] at hgate

theorem handles_onSelectedSid {sid : Nat} (hty : d.authed = some sc.authConnType)
    (hgate : authorizedScopeViolation b.windows d.authed (.misc (some (.selectedSid sid))) = none) :
    Handles b sc (.misc (some (.selectedSid sid))) d.guard (d.onSelectedSid b p sc sid).1.guard := by
  unfold onSelectedSid
  split
  · exact .same
  split
  · exact .same
  split
  · split <;> exact .same
  rename_i hft
  have hft : sc.fileTransfer = none := by simpa using hft
  split
  · rename_i hcam
    have hpf : sc.isPortForward = false := by
      by_contra hpf
      refine not_portForward_selectedSid hgate ?_
      rw [hty]
      simp [SessionScope.authConnType, hft, hpf]
    have ht : d.guard.authed = some .viewCamera := by
      refine hty.trans ?_
      simp [SessionScope.authConnType, hft, hpf, hcam]
    refine .shows (.inr ht) ?_
    rw [videoSource_of_viewCamera hcam]
    exact guard_addCameraConnection b d _
  split
  · rcases starts_trySubMonitorServices b d sc.isRemote with h | ⟨hr, hs, h⟩
    · exact .of_eq h
    · exact .starts (hty.trans (by rw [authConnType_of_isRemote hr])) hs h
  · exact .same

theorem handles_onMisc {m : Misc} (hty : d.authed = some sc.authConnType)
    (hgate : authorizedScopeViolation b.windows d.authed (.misc (some m)) = none) :
    Handles b sc (.misc (some m)) d.guard (d.onMisc b p sc lr m).1.guard := by
  cases m with
  | switchDisplay display width height =>
    exact .shows (shows_type (.inl ⟨_, _, _, rfl⟩) hgate)
      (shows_handleSwitchDisplay b p sc d lr.version display width height)
  | captureDisplays add sub set =>
    exact .shows (shows_type (.inr ⟨_, _, _, rfl⟩) hgate) (shows_captureDisplays b p sc d add sub set)
  | option o =>
    unfold onMisc
    dsimp only
    split
    · rename_i hr
      rw [guard_updateOptions]
      exact .options hr rfl
    · split
      · rename_i s hs
        rw [guard_updateOptions]
        exact .limited hs
      · exact .same
  | selectedSid sid =>
    unfold onMisc
    dsimp only
    split
    · exact handles_onSelectedSid hty hgate
    · exact .same
  | toggleVirtualDisplay display on =>
    unfold onMisc
    dsimp only
    split <;> exact .same
  | togglePrivacyMode implKey on =>
    unfold onMisc
    dsimp only
    split
    · exact .of_eq (guard_togglePrivacyMode d p implKey on)
    · exact .same
  | chatMessage text => exact .same
  | refreshVideo refresh =>
    unfold onMisc
    dsimp only
    split <;> exact .same
  | refreshVideoDisplay display =>
    unfold onMisc
    dsimp only
    split <;> exact .same
  | videoReceived => exact .same
  | restartRemoteDevice =>
    unfold onMisc
    dsimp only
    split <;> exact .same
  | elevationRequest r =>
    unfold onMisc
    dsimp only
    split
    · exact .of_eq (guard_onElevationRequest d p r)
    · exact .same
  | audioFormat format =>
    unfold onMisc
    dsimp only
    split <;> exact .same
  | switchSidesRequest uuid =>
    unfold onMisc
    dsimp only
    split
    · refine .of_eq ((guard_onClose _ b false false).trans ?_)
      split <;> rfl
    · exact .same
  | changeResolution r =>
    unfold onMisc
    dsimp only
    split
    · exact .of_eq (guard_changeResolution d p _ r)
    · exact .same
  | changeDisplayResolution display r =>
    unfold onMisc
    dsimp only
    split
    · exact .of_eq (guard_changeResolution d p _ r)
    · exact .same
  | autoAdjustFps fps => exact .same
  | clientRecordStatus status => exact .same
  | messageQuery display => exact .of_eq (guard_sendDisplayChanged d p _)
  | requestCursorData id =>
    unfold onMisc
    dsimp only
    split <;> exact .same
  | closeReason reason => exact .same
  | followCurrentDisplay display => exact .same
  | other => exact .same

theorem handles_onAuthorizedMessage {userToken : Bool} {msg : Message}
    (hty : d.authed = some sc.authConnType)
    (hgate : authorizedScopeViolation b.windows d.authed msg = none) :
    Handles b sc msg d.guard (d.onAuthorizedMessage b p sc lr userToken msg).1.guard := by
  cases msg with
  | misc m =>
    cases m with
    | none => exact .same
    | some m => exact handles_onMisc hty hgate
  | mouseEvent e => exact .of_eq (guard_onMouseEvent d b e)
  | pointerDeviceEvent body => exact .of_eq (guard_onPointerDeviceEvent d b body)
  | keyEvent e => exact .of_eq (guard_onKeyEvent d b p e)
  | clipboard content => exact .of_eq (guard_onClipboard d _)
  | multiClipboards contents => exact .of_eq (guard_onClipboard d _)
  | cliprdr c => exact .of_eq (guard_onCliprdr d b _ c)
  | fileAction fa => exact .of_eq (guard_onFileAction d b p sc _ fa)
  | fileResponse fr => exact .of_eq (guard_onFileResponse d fr)
  | audioFrame data =>
    unfold onAuthorizedMessage
    dsimp only
    split <;> exact .same
  | voiceCallRequest reqTimestamp isConnect =>
    unfold onAuthorizedMessage onVoiceCallRequest
    dsimp only
    split
    · exact .same
    · exact .calls (calls_closeVoiceCall b d)
  | screenshotRequest display sid => exact .same
  | portForwardChannel frame =>
    unfold onAuthorizedMessage
    dsimp only
    split <;> exact .same
  | terminalAction action =>
    unfold onAuthorizedMessage
    dsimp only
    split
    · exact .same
    · exact .of_eq (guard_handleTerminalAction d userToken action)
  | empty | testDelay _ _ | loginRequest _ | switchSidesResponse _ | voiceCallResponse _ | auth2fa _
  | screenshotResponse | terminalResponse | other => exact .same

end Messages

/-! ## The start of a session -/

/-- What the start of a session of a type does to the guard. -/
inductive Begins (b : Build) (sc : SessionScope) (o : Option OptionMessage) (g : Guard) : Guard → Prop
  | remote {g₁ g' : Guard} (type : sc.authConnType = .remote)
      (options : g₁ = g ∨ ∃ o', o = some o' ∧ g₁ = g.options b o')
      (starts : g' = g₁ ∨ g₁.servicesSubed = false ∧ Starts b g₁ g') : Begins b sc o g g'
  | other {g₁ g₂ g' : Guard} (type : sc.authConnType ≠ .remote)
      (options : g₁ = g ∨ ∃ o' s, o = some o' ∧ (scopedLoginOption sc.authConnType o').1 = some s ∧
        g₁ = g.options b s)
      (keyboard : g' = g₂ ∨ g' = { g₂ with keyboard := false })
      (camera : g₂ = g₁ ∨ sc.authConnType = .viewCamera ∧ Shows .camera g₁ g₂) : Begins b sc o g g'

theorem Begins.authed {b : Build} {sc : SessionScope} {o : Option OptionMessage} {g g' : Guard}
    (h : Begins b sc o g g') : g'.authed = g.authed := by
  cases h with
  | @remote g₁ _ _ options starts =>
    have h₁ : g₁.authed = g.authed := by
      rcases options with rfl | ⟨o', -, rfl⟩
      · rfl
      · exact g.options_authed o'
    rcases starts with rfl | ⟨-, starts⟩
    · exact h₁
    · exact starts.authed.trans h₁
  | @other g₁ g₂ _ _ options keyboard camera =>
    have h₁ : g₁.authed = g.authed := by
      rcases options with rfl | ⟨o', s, -, -, rfl⟩
      · rfl
      · exact g.options_authed s
    have h₂ : g₂.authed = g.authed := by
      rcases camera with rfl | ⟨-, shows⟩
      · exact h₁
      · exact shows.authed.trans h₁
    rcases keyboard with rfl | rfl
    · exact h₂
    · exact h₂

section Begin

variable (b : Build) (e : Env) (sc : SessionScope) (d : Desk)

theorem guard_answerLogin (lr : LoginRequest) : (d.answerLogin e sc lr).guard = d.guard := by
  unfold answerLogin
  split
  · dsimp only
    split <;> rfl
  · split <;> rfl

theorem guard_updateScopedLoginOptions (p : Platform) (version serviceId : String)
    (o : Option OptionMessage) (t : AuthConnType) (ht : d.authed = some t) :
    (d.updateScopedLoginOptions b p version serviceId o).guard = d.guard ∨
      ∃ o' s, o = some o' ∧ (scopedLoginOption t o').1 = some s ∧
        (d.updateScopedLoginOptions b p version serviceId o).guard = d.guard.options b s := by
  unfold updateScopedLoginOptions
  rw [ht]
  cases o with
  | none => exact .inl rfl
  | some o' =>
    dsimp only
    cases hs : (scopedLoginOption t o').1 with
    | none => exact .inl rfl
    | some s => exact .inr ⟨o', s, rfl, hs, guard_updateOptions b s d p version serviceId⟩

theorem isRemote_of_authConnType (h : sc.authConnType = .remote) : sc.isRemote = true := by
  unfold SessionScope.authConnType at h
  split_ifs at h with hft hpf hcam hterm
  simp only [Option.isSome_iff_ne_none, ne_eq, not_not, Bool.not_eq_true] at hft hpf hcam hterm
  simp [SessionScope.isRemote, hft, hpf, hcam, hterm]

theorem guard_startServices_remote (service : Option String) (h : sc.isRemote = true) :
    (d.startServices b e sc service).guard = d.guard ∨
      d.guard.servicesSubed = false ∧ Starts b d.guard (d.startServices b e sc service).guard := by
  have hsc := h
  simp only [SessionScope.isRemote, Bool.and_eq_true, Bool.not_eq_true',
    Option.isNone_iff_eq_none] at hsc
  obtain ⟨⟨⟨hft, -⟩, hcam⟩, hterm⟩ := hsc
  unfold startServices
  rw [hft]
  simp only [hterm, hcam, Bool.false_eq_true, if_false]
  split
  · split
    · rcases starts_trySubMonitorServices b d sc.isRemote with h | ⟨-, hs, h⟩
      · exact .inl h
      · exact .inr ⟨hs, h⟩
    · exact .inl rfl
  · exact .inl rfl

theorem guard_startServices_other (service : Option String) (hpf : sc.isPortForward = false)
    (h : sc.authConnType ≠ .remote) :
    ∃ g₂, ((d.startServices b e sc service).guard = g₂ ∨
        (d.startServices b e sc service).guard = { g₂ with keyboard := false }) ∧
      (g₂ = d.guard ∨ sc.authConnType = .viewCamera ∧ Shows .camera d.guard g₂) := by
  unfold startServices
  split
  · dsimp only
    split <;> exact ⟨d.guard, .inr rfl, .inl rfl⟩
  · rename_i hft
    split
    · dsimp only
      split <;> exact ⟨d.guard, .inr rfl, .inl rfl⟩
    · rename_i hterm
      split
      · rename_i hcam
        have ht : sc.authConnType = .viewCamera := by
          simp [SessionScope.authConnType, hft, hpf, hcam]
        dsimp only
        split
        · exact ⟨_, .inr rfl, .inr ⟨ht, guard_addCameraConnection b d _⟩⟩
        · exact ⟨d.guard, .inr rfl, .inl rfl⟩
      · rename_i hcam
        refine absurd ?_ h
        simp [SessionScope.authConnType, hft, hpf, hcam, hterm]

end Begin

end Desk

/-- The options of a login are applied unless the desktop cannot be shown. -/
def appliedOptions (b : Build) (e : Env) (sc : SessionScope) (o : Option OptionMessage) : Option OptionMessage :=
  if (refusedDesktop b e sc).isSome then none else o

/-- The start of a session, once the connection has its type. -/
theorem begins_beginSession (b : Build) (e : Env) (c : Conn)
    (hty : c.desk.authed = some c.scope.authConnType) :
    Desk.Begins b c.scope (appliedOptions b e c.scope c.login.optionsInLogin) c.desk.guard
      (c.beginSession b e).desk.guard := by
  by_cases hr : c.scope.authConnType = .remote
  · have hrem := Desk.isRemote_of_authConnType _ hr
    unfold Conn.beginSession
    dsimp only
    split
    · exact .remote hr (.inl rfl) (.inl rfl)
    split
    · exact .remote hr (.inl rfl) (.inl rfl)
    rename_i hshown
    rw [appliedOptions, hshown, Option.isSome_none, if_neg (by decide)]
    have hopt := Desk.guard_updateScopedLoginOptions b (c.desk.answerLogin e c.scope c.login.lr)
      e.toPlatform c.login.lr.version c.scope.terminalServiceId c.login.optionsInLogin
      c.scope.authConnType (by
        rw [← hty]
        exact congrArg Guard.authed (Desk.guard_answerLogin e c.scope c.desk c.login.lr))
    rw [Desk.guard_answerLogin] at hopt
    refine .remote hr ?_ (Desk.guard_startServices_remote b e c.scope _ _ hrem)
    rcases hopt with h | ⟨o', s, ho, hs, h⟩
    · exact .inl h
    · rw [hr] at hs
      cases hs
      exact .inr ⟨o', ho, h⟩
  · unfold Conn.beginSession
    dsimp only
    split
    · exact .other hr (.inl rfl) (.inl rfl) (.inl rfl)
    split
    · exact .other hr (.inl rfl) (.inl rfl) (.inl rfl)
    rename_i hpf _ hshown
    rw [appliedOptions, hshown, Option.isSome_none, if_neg (by decide)]
    have hopt := Desk.guard_updateScopedLoginOptions b (c.desk.answerLogin e c.scope c.login.lr)
      e.toPlatform c.login.lr.version c.scope.terminalServiceId c.login.optionsInLogin
      c.scope.authConnType (by
        rw [← hty]
        exact congrArg Guard.authed (Desk.guard_answerLogin e c.scope c.desk c.login.lr))
    rw [Desk.guard_answerLogin] at hopt
    obtain ⟨g₂, hkey, hcam⟩ := Desk.guard_startServices_other b e c.scope
      ((c.desk.answerLogin e c.scope c.login.lr).updateScopedLoginOptions b e.toPlatform
        c.login.lr.version c.scope.terminalServiceId c.login.optionsInLogin)
      (terminalServiceOf b e c.scope c.login.terminalUserToken) (by simpa using hpf) hr
    exact .other hr hopt hkey hcam

end FontisRemote.Connection
