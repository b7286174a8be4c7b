import FontisRemote.Connection.Authorization

/-!
# What an authorized session is confined to

The gate in front of the handlers and the handlers themselves together keep a session to what it was
authorized for. An effect is known by its kind (`EffectKind`); `Emits` bounds the kinds of effects a
handler can have, one lemma for each handler, and `AuthConnType.forbids` says which kinds a session of
a type must never cause.

What is let through although it is out of scope, for the sake of old clients, leaves the connection as
it was. What is not let through is logged, and may close the connection.
-/

namespace FontisRemote.Connection

open FontisRemote.Lib FontisRemote.Login
open FontisRemote.Video (VideoSource)

/-! ## Kinds of effects -/

inductive EffectKind where
  | input
  | clipboard
  /-- What the peer asks of the quality of service and of the codec. -/
  | qos
  | display
  | resolution
  | privacy
  | machine
  | cursor
  /-- An operation on files that starts a job or changes something. -/
  | file
  | printerJob
  | persistence
  | terminal
  | channel
  | violation
  | closing
  | other
  deriving DecidableEq, Repr

def Fs.kind : Fs → EffectKind
  | .writeBlock _ _ _ _ => .other
  | .writeDone _ _ => .other
  | .checkDigest _ _ _ _ _ => .other
  | .writeError _ _ _ => .other
  | _ => .file

def ToCm.kind : ToCm → EffectKind
  | .clipboardFile _ => .clipboard
  | .clipboardFileEnabled _ => .clipboard
  | .close => .closing
  | .disconnected => .closing
  | _ => .other

def Reply.kind : Reply → EffectKind
  | .fileClip => .clipboard
  | .closeReason _ => .closing
  | _ => .other

def Effect.kind : Effect → EffectKind
  | .reply r => r.kind
  | .toCm d => d.kind
  | .fs f => f.kind
  | .readJob .generic _ => .file
  | .readJob .printer _ => .printerJob
  | .inputMouse _ _ _ => .input
  | .inputPointer _ => .input
  | .inputKey _ _ => .input
  | .blockInput _ => .input
  | .updateClipboard _ => .clipboard
  | .serveFileClipboard _ => .clipboard
  | .emptyFileClipboard => .clipboard
  | .qosImageQuality _ => .qos
  | .qosFps _ => .qos
  | .qosRecord _ => .qos
  | .codec _ => .qos
  | .addVideoService _ => .display
  | .changeResolution _ _ => .resolution
  | .virtualDisplay _ _ => .resolution
  | .privacyMode _ _ => .privacy
  | .restart => .machine
  | .elevate => .machine
  | .showMyCursor _ => .cursor
  | .terminalPersistence _ _ => .persistence
  | .terminalAction _ => .terminal
  | .openChannel _ => .channel
  | .scopeViolation _ _ => .violation
  | .scopeViolationAlarm _ => .violation
  | .voiceCallDevice => .closing
  | .lockScreen => .closing
  | .qosNetworkDelay _ => .other
  | .refreshVideo _ => .other
  | .frameFetched => .other
  | .screenshot _ _ => .other
  | .audioThread _ => .other
  | .audioFrame _ => .other
  | .terminalService _ => .other
  | .switchSides _ _ => .other
  | .userSession _ => .other
  | .fileAudit => .other

/-- What a session of the type must not cause. A port forward that is not multiplexed has no use for
channels either (`Confined.channels`). -/
def AuthConnType.forbids (t : AuthConnType) (k : EffectKind) : Bool :=
  match t, k with
  | .remote, .file | .remote, .terminal | .remote, .channel => true
  | .remote, _ => false
  | .viewCamera, .qos | .viewCamera, .display => false
  | .fileTransfer, .file | .fileTransfer, .printerJob => false
  | .terminal, .terminal | .terminal, .persistence => false
  | .portForward, .channel => false
  | _, .violation | _, .closing | _, .other => false
  | _, _ => true

/-! ## What a handler can do -/

namespace Desk

/-- The kinds of effects a desktop session can have. -/
def remoteKinds : List EffectKind :=
  [.input, .clipboard, .qos, .display, .resolution, .privacy, .machine, .cursor, .printerJob,
    .persistence, .closing, .other]

/-- Every effect of the handler is of one of the kinds. -/
def Emits (ks : List EffectKind) (d d' : Desk) : Prop :=
  ∀ eff ∈ d'.out, eff ∈ d.out ∨ eff.kind ∈ ks

namespace Emits

variable {ks ls : List EffectKind} {d d₁ d₂ : Desk}

theorem refl (d : Desk) : Emits ks d d := fun _ h => .inl h

theorem of_out (h : d₁.out = d.out) : Emits ks d d₁ := fun _ he => .inl (h ▸ he)

theorem trans (h1 : Emits ks d d₁) (h2 : Emits ks d₁ d₂) : Emits ks d d₂ := by
  intro eff he
  rcases h2 eff he with he | he
  · exact h1 eff he
  · exact .inr he

theorem mono (h : Emits ks d d₁) (hk : ∀ k ∈ ks, k ∈ ls) : Emits ls d d₁ :=
  fun eff he => (h eff he).imp_right (hk _)

theorem ite {c : Prop} [Decidable c] (h1 : Emits ks d d₁) (h2 : Emits ks d d₂) :
    Emits ks d (if c then d₁ else d₂) := by
  split
  · exact h1
  · exact h2

theorem emit {eff : Effect} (h : Emits ks d d₁)
    (hk : ks.contains eff.kind = true) : Emits ks d (d₁.emit eff) := by
  intro eff' he
  rcases List.mem_cons.1 he with rfl | he
  · exact .inr (List.contains_iff_mem.1 hk)
  · exact h eff' he

theorem one {eff : Effect} (hk : ks.contains eff.kind = true) : Emits ks d (d.emit eff) :=
  (Emits.refl d).emit hk

end Emits

section Handlers

variable {b : Build} {p : Platform} {sc : SessionScope} {o : OptionMessage} {d : Desk}

@[simp]
theorem out_subscribe (s : Service) (v : Bool) : (d.subscribe b s v).out = d.out := by
  unfold subscribe
  split
  · split <;> rfl
  · rfl

@[simp]
theorem out_resubscribeAudio : (d.resubscribeAudio b).out = d.out := by
  unfold resubscribeAudio
  split
  · split <;> simp
  · simp

theorem emits_turnOnPrivacy (implKey : String) :
    Emits [.privacy, .other] d (d.turnOnPrivacy p implKey) := by
  unfold turnOnPrivacy
  split
  · exact .one rfl
  split
  · exact .one rfl
  dsimp only
  cases p.otherPrivacyImpl with
  | none =>
    have hon : Emits [.privacy, .other] d (d.emit (.privacyMode implKey true)) := .one rfl
    split <;> first | exact hon.emit rfl | exact (hon.emit rfl).emit rfl
  | some key =>
    have hother : Emits [.privacy, .other] d (d.send (.privacyMode .offSucceeded key)) := .one rfl
    have hon : Emits [.privacy, .other] d (emit _ (.privacyMode implKey true)) := hother.emit rfl
    split <;> first | exact hon.emit rfl | exact (hon.emit rfl).emit rfl

theorem emits_turnOffPrivacy (implKey : String) :
    Emits [.privacy, .other] d (d.turnOffPrivacy p implKey) := by
  unfold turnOffPrivacy
  split
  · exact .one rfl
  · exact (Emits.one rfl).emit rfl

theorem emits_togglePrivacyMode (implKey : String) (on : Bool) :
    Emits [.privacy, .other] d (d.togglePrivacyMode p implKey on) := by
  unfold togglePrivacyMode
  split
  · exact emits_turnOnPrivacy implKey
  · exact emits_turnOffPrivacy implKey

/-! ### Options -/

theorem emits_applyImageQuality : Emits [.qos] d (d.applyImageQuality o) := by
  unfold applyImageQuality
  split
  · exact .refl d
  · rename_i q _
    dsimp only
    generalize (if q = .notSet then _ else _ : Int) = quality
    split
    · exact .one rfl
    · exact .refl d

theorem emits_applyCustomFps : Emits [.qos] d (d.applyCustomFps o) := by
  unfold applyCustomFps
  split
  · exact .one rfl
  · exact .refl d

theorem emits_applySupportedDecoding : Emits [.qos] d (d.applySupportedDecoding o) := by
  unfold applySupportedDecoding
  split
  · exact .one rfl
  · exact .refl d

@[simp]
theorem out_applyLockAfterSessionEnd : (d.applyLockAfterSessionEnd o).out = d.out := by
  unfold applyLockAfterSessionEnd
  split <;> rfl

@[simp]
theorem out_applyShowRemoteCursor : (d.applyShowRemoteCursor b o).out = d.out := by
  unfold applyShowRemoteCursor
  split
  · rfl
  · split <;> simp

@[simp]
theorem out_applyFollowRemoteCursor : (d.applyFollowRemoteCursor b o).out = d.out := by
  unfold applyFollowRemoteCursor
  split
  · rfl
  · split <;> rfl

@[simp]
theorem out_applyFollowRemoteWindow : (d.applyFollowRemoteWindow b o).out = d.out := by
  unfold applyFollowRemoteWindow
  split <;> simp

@[simp]
theorem out_applyDisableAudio : (d.applyDisableAudio b o).out = d.out := by
  unfold applyDisableAudio
  split <;> simp

@[simp]
theorem out_applyDisableClipboard : (d.applyDisableClipboard b o).out = d.out := by
  unfold applyDisableClipboard
  split <;> simp

@[simp]
theorem out_applyDisableKeyboard : (d.applyDisableKeyboard b o).out = d.out := by
  unfold applyDisableKeyboard
  split
  · dsimp only
    split <;> simp
  · rfl

theorem emits_applyEnableFileTransfer : Emits [.clipboard] d (d.applyEnableFileTransfer b o) := by
  unfold applyEnableFileTransfer
  split
  · exact .refl d
  split
  · rename_i v _
    have hset : Emits [.clipboard] d { d with enableFileTransfer := v } := .of_out rfl
    dsimp only
    generalize ({ d with enableFileTransfer := v } : Desk) = d₁ at hset ⊢
    have hcm : Emits [.clipboard] d (if b.windows = true then
        d₁.sendToCm (.clipboardFileEnabled d₁.fileTransferEnabled) else d₁) := .ite (hset.emit rfl) hset
    generalize (if b.windows = true then _ else d₁ : Desk) = d₂ at hcm ⊢
    refine .ite ?_ hcm
    exact (Emits.ite (hcm.emit rfl) hcm).trans (.of_out (out_subscribe _ _))
  · exact .refl d

theorem emits_applyPrivacyMode (version : String) :
    Emits [.privacy, .other] d (d.applyPrivacyMode p version o) := by
  unfold applyPrivacyMode
  split
  · split
    · split
      · exact emits_turnOnPrivacy ""
      · exact .refl d
    · split
      · exact emits_turnOffPrivacy ""
      · exact .refl d
    · exact .refl d
  · exact .refl d

theorem emits_applyBlockInput : Emits [.input, .other] d (d.applyBlockInput o) := by
  unfold applyBlockInput
  split
  · split
    · exact .one rfl
    · exact .one rfl
  · exact .refl d

theorem emits_applyTerminalPersistent (serviceId : String) :
    Emits [.persistence] d (d.applyTerminalPersistent b serviceId o) := by
  unfold applyTerminalPersistent
  split
  · exact .refl d
  split
  · exact (Emits.of_out rfl).emit rfl
  · exact .refl d

theorem emits_applyShowMyCursor : Emits [.cursor, .other] d (d.applyShowMyCursor b p o) := by
  unfold applyShowMyCursor
  split
  · exact .refl d
  split
  · dsimp only
    split
    · exact (Emits.of_out rfl).emit rfl
    · exact (Emits.of_out rfl).emit rfl
  · dsimp only
    split
    · exact (Emits.of_out rfl).emit rfl
    · exact .of_out rfl
  · exact .refl d

/-- The kinds of effects an option can have on a desktop session. -/
def optionKinds : List EffectKind :=
  [.qos, .clipboard, .privacy, .input, .persistence, .cursor, .other]

theorem emits_updateOptions (version serviceId : String) :
    Emits optionKinds d (d.updateOptions b p version serviceId o) := by
  unfold updateOptions
  refine .trans ?_ (emits_applyShowMyCursor.mono (by decide))
  refine .trans ?_ ((emits_applyTerminalPersistent serviceId).mono (by decide))
  refine .trans ?_ (emits_applyBlockInput.mono (by decide))
  refine .trans ?_ ((emits_applyPrivacyMode version).mono (by decide))
  refine .trans ?_ (.of_out out_applyDisableKeyboard)
  refine .trans ?_ (.of_out out_applyDisableClipboard)
  refine .trans ?_ (emits_applyEnableFileTransfer.mono (by decide))
  refine .trans ?_ (.of_out out_applyDisableAudio)
  refine .trans ?_ (.of_out out_applyFollowRemoteWindow)
  refine .trans ?_ (.of_out out_applyFollowRemoteCursor)
  refine .trans ?_ (.of_out out_applyShowRemoteCursor)
  refine .trans ?_ (.of_out out_applyLockAfterSessionEnd)
  refine .trans ?_ (emits_applySupportedDecoding.mono (by decide))
  refine .trans ?_ (emits_applyCustomFps.mono (by decide))
  exact emits_applyImageQuality.mono (by decide)

/-- The options of a desktop session, that no other session may change. -/
structure RemoteOptions where
  lockAfterSessionEnd : Bool
  showRemoteCursor : Bool
  followRemoteCursor : Bool
  followRemoteWindow : Bool
  disableKeyboard : Bool
  disableClipboard : Bool
  enableFileTransfer : Bool
  showMyCursor : Bool
  deriving DecidableEq

def remoteOptions (d : Desk) : RemoteOptions where
  lockAfterSessionEnd := d.lockAfterSessionEnd
  showRemoteCursor := d.showRemoteCursor
  followRemoteCursor := d.followRemoteCursor
  followRemoteWindow := d.followRemoteWindow
  disableKeyboard := d.disableKeyboard
  disableClipboard := d.disableClipboard
  enableFileTransfer := d.enableFileTransfer
  showMyCursor := d.showMyCursor

/-- An option of a camera session is about the picture and the sound. -/
theorem updateOptions_viewCamera {s : OptionMessage} (version serviceId : String)
    (h : (scopedViewCameraOption o).1 = some s) : d.updateOptions b p version serviceId s =
      (((d.applyImageQuality s).applyCustomFps s).applySupportedDecoding s).applyDisableAudio b s := by
  rw [scopedViewCameraOption_fields h]
  simp [updateOptions, applyLockAfterSessionEnd, applyShowRemoteCursor, applyFollowRemoteCursor,
    applyFollowRemoteWindow, applyEnableFileTransfer, applyDisableClipboard, applyDisableKeyboard,
    applyPrivacyMode, applyBlockInput, applyTerminalPersistent, applyShowMyCursor, setValue,
    EnumOrUnknown.enumValue, BoolOption.set]

theorem updateOptions_terminal {s : OptionMessage} (version serviceId : String)
    (h : (scopedTerminalLoginOption o).1 = some s) :
    d.updateOptions b p version serviceId s = d.applyTerminalPersistent b serviceId s := by
  obtain ⟨v, -, -, rfl⟩ := scopedTerminalLoginOption_fields h
  simp [updateOptions, applyImageQuality, applyCustomFps, applySupportedDecoding,
    applyLockAfterSessionEnd, applyShowRemoteCursor, applyFollowRemoteCursor,
    applyFollowRemoteWindow, applyDisableAudio, applyEnableFileTransfer, applyDisableClipboard,
    applyDisableKeyboard, applyPrivacyMode, applyBlockInput, applyShowMyCursor, setValue,
    EnumOrUnknown.enumValue, BoolOption.set]

/-! ### Displays and calls -/

theorem emits_addVideoService (s : Service) : Emits [.display] d (d.addVideoService s) := by
  have hadd : Emits [.display] d (d.emit (.addVideoService s)) := .one rfl
  exact fun eff he => hadd eff he

theorem emits_changeResolution (display : Option Nat) (r : Resolution) :
    Emits [.resolution] d (d.changeResolution p display r) := by
  unfold changeResolution
  split
  · dsimp only
    exact .ite (.one rfl) (.refl d)
  · exact .refl d

theorem emits_sendDisplayChanged (idx : Nat) : Emits [.other] d (d.sendDisplayChanged p idx) :=
  .ite (.one rfl) (.refl d)

theorem emits_switchDisplayTo {d' : Desk} {version : String} {idx : Nat}
    (h : d.switchDisplayTo b p sc version idx = some d') : Emits [.display] d d' := by
  unfold switchDisplayTo at h
  split at h
  · cases h
  · cases h
    have hadd := emits_addVideoService (d := d) (getServiceName sc.videoSource idx)
    refine hadd.trans (.of_out ?_)
    simp only [out_subscribe]
    split
    · exact out_subscribe _ _
    · rfl

/-- A camera session changes no resolution on the way. -/
theorem emits_handleSwitchDisplay {ks : List EffectKind} (version : String)
    (display width height : Int) (hd : .display ∈ ks) (ho : .other ∈ ks)
    (hr : sc.viewCamera = false → .resolution ∈ ks) :
    Emits ks d (d.handleSwitchDisplay b p sc version display width height) := by
  unfold handleSwitchDisplay
  dsimp only
  split
  · exact .refl d
  split
  · exact .refl d
  · rename_i d' hd'
    have hto : Emits ks d d' := (emits_switchDisplayTo hd').mono (by simpa using hd)
    refine .trans ?_ ((emits_sendDisplayChanged _).mono (by simpa using ho))
    split
    · rename_i hres
      simp only [Bool.and_eq_true, Bool.not_eq_true'] at hres
      exact hto.trans ((emits_changeResolution _ _).mono (by simpa using hr hres.1.1.2))
    · exact hto

theorem emits_addVideoServices (src : VideoSource) (l : List Nat) :
    Emits [.display] d (l.foldl (fun d i => d.addVideoService (getServiceName src i)) d) := by
  induction l generalizing d with
  | nil => exact .refl d
  | cons i l ih => exact (emits_addVideoService _).trans ih

theorem emits_captureDisplays (add sub set : List Int) :
    Emits [.display] d (d.captureDisplays b p sc add sub set) := by
  unfold captureDisplays
  dsimp only
  split
  · exact .refl d
  · have hadd := emits_addVideoServices (d := d) sc.videoSource
      (((add.map toUsize).filter (· < p.videoSourceCount sc.videoSource)) ++
        (set.map toUsize).filter (· < p.videoSourceCount sc.videoSource))
    refine hadd.trans ?_
    generalize List.foldl _ d _ = d₁
    have hcap : (if (!add.isEmpty) = true then d₁.captureServices sc.videoSource
          ((add.map toUsize).filter (· < p.videoSourceCount sc.videoSource)) true false
        else if (!sub.isEmpty) = true then d₁.captureServices sc.videoSource
          ((sub.map toUsize).filter (· < p.videoSourceCount sc.videoSource)) false true
        else d₁.captureServices sc.videoSource
          ((set.map toUsize).filter (· < p.videoSourceCount sc.videoSource)) true true).out = d₁.out := by
      split
      · rfl
      · split <;> rfl
    exact .ite (.of_out ((out_subscribe _ _).trans hcap)) (.of_out hcap)

theorem emits_closeVoiceCall : Emits [.closing, .other] d (d.closeVoiceCall b) := by
  unfold closeVoiceCall
  dsimp only
  have hcall : Emits [.closing, .other] d ((d.emit .voiceCallDevice).sendToCm .closeVoiceCall) :=
    (Emits.one rfl).emit rfl
  exact .ite (hcall.trans (.of_out (out_subscribe _ _))) (hcall.trans (.of_out rfl))

theorem emits_onVoiceCallRequest (reqTimestamp : Int) (isConnect : Bool) :
    Emits [.closing, .other] d (d.onVoiceCallRequest b p reqTimestamp isConnect) := by
  unfold onVoiceCallRequest
  exact .ite (.emit (.of_out rfl) rfl) emits_closeVoiceCall

theorem emits_trySubMonitorServices (isRemote : Bool) :
    Emits [.display] d (d.trySubMonitorServices b isRemote) := by
  unfold trySubMonitorServices
  refine .ite ?_ (.refl d)
  intro eff he
  exact emits_addVideoService (d := d) (.monitor d.displayIdx) eff he

theorem emits_addCameraConnection (exists_ : Bool) :
    Emits [.display] d (d.addCameraConnection b exists_) :=
  .ite ((emits_addVideoService _).trans (.of_out (out_subscribe _ _))) (.refl d)

theorem emits_onClose (lock reconnected : Bool) : Emits [.closing] d (d.onClose b lock reconnected) := by
  unfold onClose
  refine .ite (.refl d) ?_
  have hcall : Emits [.closing] d ({ d with closed := true }.emit .voiceCallDevice) :=
    .emit (.of_out rfl) rfl
  dsimp only
  generalize { d with closed := true }.emit .voiceCallDevice = d₁ at hcall ⊢
  have hlock : Emits [.closing] d (if (lock && d₁.lockAfterSessionEnd && d₁.keyboard && !reconnected &&
      !b.mobile) = true then d₁.emit .lockScreen else d₁) := .ite (hcall.emit rfl) hcall
  exact .ite (hlock.emit rfl) (hlock.emit rfl)

/-! ### Input, the clipboard and files -/

theorem emits_onMouseEvent (e : MouseEvent) : Emits [.input] d (d.onMouseEvent b e) :=
  .ite (.refl d) (.ite (.one rfl) (.ite (.one rfl) (.ite (.one rfl) (.refl d))))

theorem emits_onPointerDeviceEvent (body : Bytes) :
    Emits [.input] d (d.onPointerDeviceEvent b body) :=
  .ite (.refl d) (.ite (.one rfl) (.ite (.one rfl) (.refl d)))

theorem emits_onKeyEvent (e : KeyEvent) : Emits [.input] d (d.onKeyEvent b p e) := by
  unfold onKeyEvent
  refine .ite (.refl d) (.ite (.refl d) (.ite (.one rfl) (.ite (.ite ?_ (.one rfl))
    (.refl d))))
  split <;> exact .one rfl

theorem emits_onClipboard (contents : List Bytes) : Emits [.clipboard] d (d.onClipboard contents) :=
  .ite (.one rfl) (.refl d)

theorem emits_serveClip (version : String) (c : Cliprdr) :
    Emits [.clipboard] d (d.serveClip b version c) := by
  unfold serveClip
  have hcm : Emits [.clipboard] d (if b.windows = true then d.sendToCm (.clipboardFile c) else d) :=
    .ite (.one rfl) (.refl d)
  exact .ite ((hcm.emit rfl).emit rfl) hcm

theorem emits_onCliprdr (version : String) (c : Cliprdr) :
    Emits [.clipboard, .other] d (d.onCliprdr b version c) := by
  unfold onCliprdr
  refine .ite (.refl d) ?_
  cases c with
  | files _ => exact .one rfl
  | request _ => exact .ite (.refl d) ((emits_serveClip _ _).mono (by decide))
  | other _ => exact (emits_serveClip _ _).mono (by decide)

theorem emits_createAndStartReadJob {ks : List EffectKind} (type : JobType) (id : Int)
    (ho : ks.contains .other = true) (hj : ks.contains (Effect.readJob type id).kind = true) :
    Emits ks d (d.createAndStartReadJob p type id) := by
  unfold createAndStartReadJob
  split
  · exact .one ho
  · exact .emit (.emit (.emit (.of_out rfl) hj) ho) ho

theorem emits_sendFiles_printer (overwriteDetection : Bool) (id : Int) (path : String)
    (includeHidden : Bool) (fileNum : Int) :
    Emits [.printerJob, .other] d
      (d.sendFiles p overwriteDetection id path includeHidden fileNum .printer) := by
  unfold sendFiles
  refine .ite ?_ (.refl d)
  have hjob : Emits [.printerJob, .other] d (createAndStartReadJob p .printer id
      { d with printerData := d.printerData.eraseP (·.1 = path) }) :=
    .trans (.of_out rfl) (emits_createAndStartReadJob .printer id rfl rfl)
  exact hjob.trans (.of_out rfl)

/-- A connection that is not for file transfer has nothing but printer data sent to it. -/
theorem emits_onFileAction_other (version : String) (fa : Option FileAction)
    (hft : sc.fileTransfer = none) :
    Emits [.printerJob, .other] d (d.onFileAction b p sc version fa) := by
  unfold onFileAction
  split
  · exact .refl d
  rename_i hsend
  split
  · split <;> exact .of_out rfl
  cases fa with
  | none => exact .refl d
  | some fa =>
    dsimp only
    have hp : isPrinterSend (some fa) = true := by simpa [hft] using hsend
    split
    · exact .one rfl
    split
    · rename_i d' hd'
      split at hd'
      · unfold refusedPath at hd'
        cases fa with
        | send id path includeHidden fileNum fileType =>
          simp only [isPrinterSend, decide_eq_true_eq] at hp
          simp [checkedPath, hp] at hd'
        | _ => simp [isPrinterSend] at hp
      · cases hd'
    · cases fa with
      | send id path includeHidden fileNum fileType =>
        simp only [isPrinterSend, decide_eq_true_eq] at hp
        unfold runFileAction
        dsimp only
        rw [hp]
        exact emits_sendFiles_printer _ _ _ _ _
      | _ => simp [isPrinterSend] at hp

theorem emits_onFileResponse (fr : Option FileResponse) : Emits [.other] d (d.onFileResponse fr) := by
  unfold onFileResponse
  split
  · exact .one rfl
  · exact .one rfl
  · exact .one rfl
  · exact .one rfl
  · exact .refl d

theorem emits_onElevationRequest (r : Option Elevation) :
    Emits [.machine, .other] d (d.onElevationRequest p r) := by
  unfold onElevationRequest
  split
  · exact .refl d
  · exact .ite (.one rfl) (.ite (.emit (.one rfl) rfl) (.one rfl))

theorem emits_onTestDelay (time : Int) (fromClient : Bool) :
    Emits [.other] d (d.onTestDelay p time fromClient) := by
  unfold onTestDelay
  refine .ite (.one rfl) ?_
  split
  · have hdelay : ∀ n, Emits [.other] d (d.emit (.qosNetworkDelay n)) := fun n => .one rfl
    exact fun eff he => hdelay _ eff he
  · exact .refl d

theorem emits_onScopeViolation (family : String) :
    Emits [.violation] d (d.onScopeViolation p family) := by
  unfold onScopeViolation
  have hlog : Emits [.violation] d ({ d with
      scopeViolationMessages := d.scopeViolationMessages.insert family }.emit
        (.scopeViolation family (!d.scopeViolationMessages.contains family))) := .emit (.of_out rfl) rfl
  exact .ite (hlog.emit rfl) hlog

/-! ### A desktop session -/

theorem emits_onSelectedSid_remote (sid : Nat) (h : sc.isRemote = true) :
    Emits [.display, .other] d (d.onSelectedSid b p sc sid).1 := by
  simp only [SessionScope.isRemote, Bool.and_eq_true, Bool.not_eq_true', Option.isNone_iff_eq_none] at h
  unfold onSelectedSid
  split
  · exact .refl d
  split
  · exact .one rfl
  rw [if_neg (by simp [h.1.1.1]), if_neg (by simp [h.1.2]), if_pos (by simp [h.2])]
  exact (emits_trySubMonitorServices _).mono (by decide)

theorem emits_onMisc_remote {lr : LoginRequest} (m : Misc) (h : sc.isRemote = true)
    (hty : d.authed = some .remote) : Emits remoteKinds d (d.onMisc b p sc lr m).1 := by
  cases m with
  | switchDisplay display width height =>
    exact emits_handleSwitchDisplay _ _ _ _ (by decide) (by decide) fun _ => by decide
  | captureDisplays add sub set => exact (emits_captureDisplays _ _ _).mono (by decide)
  | option o =>
    unfold onMisc
    dsimp only
    rw [if_pos hty]
    exact (emits_updateOptions _ _).mono (by decide)
  | selectedSid sid =>
    unfold onMisc
    dsimp only
    split
    · exact (emits_onSelectedSid_remote sid h).mono (by decide)
    · exact .refl d
  | toggleVirtualDisplay display on => exact .ite (.one rfl) (.refl d)
  | togglePrivacyMode implKey on =>
    exact .ite ((emits_togglePrivacyMode _ _).mono (by decide)) (.refl d)
  | chatMessage text =>
    have hchat : Emits remoteKinds d (d.sendToCm (.chatMessage text)) := .one rfl
    exact hchat.trans (.of_out rfl)
  | refreshVideo refresh => exact .ite (.one rfl) (.refl d)
  | refreshVideoDisplay display => exact .ite (.one rfl) (.refl d)
  | videoReceived => exact .one rfl
  | restartRemoteDevice => exact .ite (.one rfl) (.refl d)
  | elevationRequest r => exact .ite ((emits_onElevationRequest r).mono (by decide)) (.refl d)
  | audioFormat format =>
    have hthread : Emits remoteKinds d (d.emit (.audioThread format)) := .one rfl
    exact .ite (hthread.trans (.of_out rfl)) (.refl d)
  | switchSidesRequest uuid =>
    unfold onMisc
    dsimp only
    split
    · have hsw : Emits remoteKinds d (if p.newSwitchSides = true then
          d.emit (.switchSides lr.myId.1 uuid) else d) := .ite (.one rfl) (.refl d)
      exact hsw.trans ((emits_onClose _ _).mono (by decide))
    · exact .refl d
  | changeResolution r => exact .ite ((emits_changeResolution _ _).mono (by decide)) (.refl d)
  | changeDisplayResolution display r =>
    exact .ite ((emits_changeResolution _ _).mono (by decide)) (.refl d)
  | autoAdjustFps fps => exact .one rfl
  | clientRecordStatus status => exact .one rfl
  | messageQuery display => exact (emits_sendDisplayChanged _).mono (by decide)
  | requestCursorData id => exact .ite (.one rfl) (.refl d)
  | closeReason reason => exact .refl d
  | followCurrentDisplay display => exact .refl d
  | other => exact .refl d

theorem emits_handleTerminalAction (userToken : Bool) (action : Bytes) :
    Emits [.terminal, .other] d (d.handleTerminalAction userToken action) := by
  have hact : Emits [.terminal, .other] d (d.emit (.terminalAction action)) := .one rfl
  exact .ite (hact.emit rfl) hact

theorem emits_onScreenshotRequest (display : Int) (sid : String) :
    Emits [.other] d (d.onScreenshotRequest sc display sid) := by
  have hshot : Emits [.other] d (d.emit (.screenshot (getServiceName sc.videoSource (toUsize display)) sid)) :=
    .one rfl
  exact hshot.emit rfl

theorem emits_audioFrame (data : Bytes) :
    Emits [.other] d (if !d.disableAudio && d.audioSender then d.emit (.audioFrame data) else d) :=
  .ite (.one rfl) (.refl d)

theorem emits_onAuthorizedMessage_remote {lr : LoginRequest} {userToken : Bool} (msg : Message)
    (h : sc.isRemote = true) (hty : d.authed = some .remote)
    (hterm : ∀ action, msg = .terminalAction action → b.mobile = true) :
    Emits remoteKinds d (d.onAuthorizedMessage b p sc lr userToken msg).1 := by
  have hsc := h
  simp only [SessionScope.isRemote, Bool.and_eq_true, Bool.not_eq_true', Option.isNone_iff_eq_none]
    at hsc
  cases msg with
  | misc m =>
    cases m with
    | none => exact .refl d
    | some m => exact emits_onMisc_remote m h hty
  | mouseEvent e => exact (emits_onMouseEvent e).mono (by decide)
  | pointerDeviceEvent body => exact (emits_onPointerDeviceEvent body).mono (by decide)
  | keyEvent e => exact (emits_onKeyEvent e).mono (by decide)
  | clipboard content => exact (emits_onClipboard _).mono (by decide)
  | multiClipboards contents => exact (emits_onClipboard _).mono (by decide)
  | cliprdr c => exact (emits_onCliprdr _ c).mono (by decide)
  | fileAction fa => exact (emits_onFileAction_other _ fa hsc.1.1.1).mono (by decide)
  | fileResponse fr => exact (emits_onFileResponse fr).mono (by decide)
  | audioFrame data => exact (emits_audioFrame data).mono (by decide)
  | voiceCallRequest reqTimestamp isConnect =>
    exact (emits_onVoiceCallRequest reqTimestamp isConnect).mono (by decide)
  | screenshotRequest display sid => exact (emits_onScreenshotRequest display sid).mono (by decide)
  | portForwardChannel frame =>
    have hmux : sc.mux = none := by
      have hpf := hsc.1.1.2
      simp only [SessionScope.isPortForward, Bool.or_eq_false_iff] at hpf
      simpa using hpf.2
    unfold onAuthorizedMessage
    rw [hmux]
    exact .refl d
  | terminalAction action =>
    unfold onAuthorizedMessage
    dsimp only
    rw [if_pos (hterm action rfl)]
    exact .refl d
  | empty | testDelay _ _ | loginRequest _ | switchSidesResponse _ | voiceCallResponse _ | auth2fa _
  | screenshotResponse | terminalResponse | other => exact .refl d

end Handlers

/-! ### Sessions of the other types -/

/-- What a message can do to the desk of a session of the type. -/
structure Within (t : AuthConnType) (d d' : Desk) : Prop where
  effects : ∀ eff ∈ d'.out, eff ∈ d.out ∨ t.forbids eff.kind = false
  displays : t = .fileTransfer ∨ t = .portForward ∨ t = .terminal →
    ∀ s, d'.subs s = true → d.subs s = true
  options : t ≠ .remote → d'.remoteOptions = d.remoteOptions

section Limited

variable {b : Build} {p : Platform} {sc : SessionScope} {lr : LoginRequest} {o : OptionMessage}
  {d d₁ : Desk} {t : AuthConnType} {ks : List EffectKind}

theorem Within.refl (t : AuthConnType) (d : Desk) : Within t d d :=
  ⟨fun _ h => .inl h, fun _ _ h => h, fun _ => rfl⟩

theorem Within.of_emits (h : Emits ks d d₁) (hk : ∀ k ∈ ks, t.forbids k = false)
    (hsubs : d₁.subs = d.subs) (hopts : d₁.remoteOptions = d.remoteOptions) : Within t d d₁ :=
  ⟨fun eff he => (h eff he).imp_right (hk _), fun _ _ hs => hsubs ▸ hs, fun _ => hopts⟩

theorem Within.of_emits_camera (h : Emits ks d d₁)
    (hk : ∀ k ∈ ks, AuthConnType.viewCamera.forbids k = false)
    (hopts : d₁.remoteOptions = d.remoteOptions) : Within .viewCamera d d₁ :=
  ⟨fun eff he => (h eff he).imp_right (hk _), fun h => by simp at h, fun _ => hopts⟩

theorem Within.of_emits_remote (h : Emits ks d d₁)
    (hk : ∀ k ∈ ks, AuthConnType.remote.forbids k = false) : Within .remote d d₁ :=
  ⟨fun eff he => (h eff he).imp_right (hk _), fun h => by simp at h, fun h => absurd rfl h⟩

/-- Nothing that is let through only to be ignored has an effect. -/
theorem onAuthorizedMessage_noop {userToken : Bool} {msg : Message} (hty : d.authed = some t)
    (h : isNoopCompat t msg = true) : d.onAuthorizedMessage b p sc lr userToken msg = (d, true) := by
  have hrender : t ≠ .remote → t ≠ .viewCamera → d.shouldHandleRenderBroadcastMessage = false := by
    intro h1 h2
    simp [shouldHandleRenderBroadcastMessage, hty, h1, h2]
  have hclip : t ≠ .remote → d.shouldHandleTextClipboardMessage = false := by
    intro h1
    simp [shouldHandleTextClipboardMessage, hty, h1]
  -- only the three kinds of messages a compatibility list names are left
  have hbroadcast : t ≠ .remote → t ≠ .viewCamera → isRenderBroadcastNoopCompatMessage msg = true →
      d.onAuthorizedMessage b p sc lr userToken msg = (d, true) := by
    intro h1 h2 hb
    cases msg with
    | misc m =>
      cases m with
      | none => cases hb
      | some m =>
        cases m with
        | refreshVideo refresh => simp [onAuthorizedMessage, onMisc, hrender h1 h2]
        | refreshVideoDisplay display => simp [onAuthorizedMessage, onMisc, hrender h1 h2]
        | option o =>
          have hnone : scopedUpdateOptionMessage (some t) o = none := by
            cases t with
            | remote => rfl
            | fileTransfer => rfl
            | portForward => rfl
            | viewCamera => exact absurd rfl h2
            | terminal => exact scopedTerminalLoginOption_decodingOnly hb
          simp [onAuthorizedMessage, onMisc, hty, h1, hnone]
        | _ => cases hb
    | _ => cases hb
  have htext : t ≠ .remote → isTextClipboardNoopCompatMessage msg = true →
      d.onAuthorizedMessage b p sc lr userToken msg = (d, true) := by
    intro h1 hc
    cases msg with
    | clipboard content => simp [onAuthorizedMessage, onClipboard, hclip h1]
    | multiClipboards contents => simp [onAuthorizedMessage, onClipboard, hclip h1]
    | _ => cases hc
  cases t with
  | remote => cases h
  | fileTransfer =>
    rcases Bool.or_eq_true _ _ |>.mp h with h | h
    · exact hbroadcast (by decide) (by decide) h
    · exact htext (by decide) h
  | terminal =>
    rcases Bool.or_eq_true _ _ |>.mp h with h | h
    · exact hbroadcast (by decide) (by decide) h
    · exact htext (by decide) h
  | portForward => exact hbroadcast (by decide) (by decide) h
  | viewCamera => exact htext (by decide) h

theorem onAuthorizedMessage_option {userToken : Bool} (h : ¬d.authed = some .remote) :
    d.onAuthorizedMessage b p sc lr userToken (.misc (some (.option o))) =
      (match scopedUpdateOptionMessage d.authed o with
        | some s => d.updateOptions b p lr.version sc.terminalServiceId s
        | none => d, true) := by
  unfold onAuthorizedMessage onMisc
  dsimp only
  rw [if_neg h]
  cases scopedUpdateOptionMessage d.authed o <;> rfl

/-- The part of the desk that only a session with a picture may change. -/
structure Seen where
  subs : Service → Bool
  options : RemoteOptions

def seen (d : Desk) : Seen := ⟨d.subs, d.remoteOptions⟩

theorem Within.of_seen (h : Emits ks d d₁) (hk : ∀ k ∈ ks, t.forbids k = false)
    (hseen : d₁.seen = d.seen) : Within t d d₁ :=
  .of_emits h hk (congrArg Seen.subs hseen) (congrArg Seen.options hseen)

theorem Within.one {eff : Effect} (hk : t.forbids eff.kind = false) : Within t d (d.emit eff) :=
  .of_seen (Emits.one (List.contains_iff_mem.2 (List.mem_singleton.2 rfl))) (by simpa using hk) rfl

theorem seen_createAndStartReadJob (type : JobType) (id : Int) :
    (d.createAndStartReadJob p type id).seen = d.seen := by
  unfold createAndStartReadJob
  split <;> rfl

theorem seen_sendFiles (overwriteDetection : Bool) (id : Int) (path : String) (includeHidden : Bool)
    (fileNum : Int) (type : JobType) :
    (d.sendFiles p overwriteDetection id path includeHidden fileNum type).seen = d.seen := by
  cases type with
  | generic =>
    unfold sendFiles
    dsimp only
    split
    · rfl
    · exact seen_createAndStartReadJob _ _
  | printer =>
    unfold sendFiles
    dsimp only
    split
    · exact seen_createAndStartReadJob _ _
    · rfl

theorem seen_runFileAction (overwriteDetection : Bool) (fa : FileAction) :
    (d.runFileAction p overwriteDetection fa).seen = d.seen := by
  cases fa with
  | send id path includeHidden fileNum fileType => exact seen_sendFiles _ _ _ _ _ _
  | allFiles id path includeHidden =>
    unfold runFileAction
    dsimp only
    split
    · rfl
    · split <;> rfl
  | cancel id =>
    unfold runFileAction
    dsimp only
    split <;> rfl
  | sendConfirm id fileNum skip offsetBlk =>
    unfold runFileAction
    dsimp only
    split
    · rfl
    · split <;> rfl
  | _ => rfl

theorem seen_refusedPath {fa : FileAction} (h : d.refusedPath p fa = some d₁) : d₁.seen = d.seen := by
  have href : ∀ id : Int, (if 0 ≤ id then d.send (.fileError id "Permission denied" (-1)) else d).seen =
      d.seen := by
    intro id
    split <;> rfl
  unfold refusedPath at h
  dsimp only at h
  split at h
  · split at h
    · cases h
      exact href _
    · split at h
      · split at h
        · cases h
          exact href _
        · cases h
      · cases h
  · cases h

theorem seen_onFileAction (version : String) (fa : Option FileAction) :
    (d.onFileAction b p sc version fa).seen = d.seen := by
  unfold onFileAction
  split
  · rfl
  split
  · split <;> rfl
  split
  · rfl
  split
  · rfl
  split
  · rename_i d' hd'
    split at hd'
    · exact seen_refusedPath hd'
    · cases hd'
  · exact seen_runFileAction _ _

theorem seen_onFileResponse (fr : Option FileResponse) : (d.onFileResponse fr).seen = d.seen := by
  unfold onFileResponse
  split <;> rfl

/-! ### A file transfer -/

/-- The kinds of effects a file action can have. -/
def fileKinds : List EffectKind := [.file, .printerJob, .other]

theorem emits_sendFiles (overwriteDetection : Bool) (id : Int) (path : String) (includeHidden : Bool)
    (fileNum : Int) (type : JobType) : Emits fileKinds d
      (d.sendFiles p overwriteDetection id path includeHidden fileNum type) := by
  cases type with
  | printer => exact (emits_sendFiles_printer _ _ _ _ _).mono (by decide)
  | generic =>
    unfold sendFiles
    refine .trans ?_ (.of_out rfl)
    exact .ite (.emit (.of_out rfl) rfl) (emits_createAndStartReadJob .generic id rfl rfl)

theorem emits_runFileAction (overwriteDetection : Bool) (fa : FileAction) :
    Emits fileKinds d (d.runFileAction p overwriteDetection fa) := by
  cases fa with
  | readEmptyDirs path includeHidden => exact .one rfl
  | readDir path includeHidden => exact .one rfl
  | allFiles id path includeHidden =>
    unfold runFileAction
    dsimp only
    split
    · exact .one rfl
    · split <;> exact .one rfl
  | send id path includeHidden fileNum fileType => exact emits_sendFiles _ _ _ _ _ _
  | receive id path files fileNum totalSize =>
    have hnew : Emits fileKinds d ((d.sendFs (.newWrite path id fileNum files overwriteDetection
        totalSize)).emit .fileAudit) := (Emits.one rfl).emit rfl
    exact hnew.trans (.of_out rfl)
  | removeDir id path recursive => exact .one rfl
  | removeFile id path fileNum => exact .one rfl
  | create id path => exact (Emits.one rfl).emit rfl
  | cancel id =>
    unfold runFileAction
    dsimp only
    have hwrite : Emits fileKinds d (d.sendFs (.cancelWrite id)) := .one rfl
    have hread : Emits fileKinds d (sendFs { d.sendFs (.cancelWrite id) with
        cmReadJobIds := (d.sendFs (.cancelWrite id)).cmReadJobIds.filter (· ≠ id) } (.cancelRead id)) :=
      (hwrite.trans (.of_out rfl)).emit rfl
    exact .ite (.emit (hread.trans (.of_out rfl)) rfl) hread
  | sendConfirm id fileNum skip offsetBlk =>
    exact .ite (.refl d) (.ite (.one rfl) (.one rfl))
  | rename id path newName => exact (Emits.one rfl).emit rfl

theorem emits_refusedPath {fa : FileAction} (h : d.refusedPath p fa = some d₁) :
    Emits [.other] d d₁ := by
  have href : ∀ id : Int, Emits [.other] d
      (if 0 ≤ id then d.send (.fileError id "Permission denied" (-1)) else d) :=
    fun id => .ite (.one rfl) (.refl d)
  unfold refusedPath at h
  dsimp only at h
  split at h
  · split at h
    · cases h
      exact href _
    · split at h
      · split at h
        · cases h
          exact href _
        · cases h
      · cases h
  · cases h

theorem emits_onFileAction (version : String) (fa : Option FileAction) :
    Emits fileKinds d (d.onFileAction b p sc version fa) := by
  unfold onFileAction
  split
  · exact .refl d
  split
  · split <;> exact .of_out rfl
  split
  · exact .refl d
  split
  · exact .one rfl
  split
  · rename_i d' hd'
    split at hd'
    · exact (emits_refusedPath hd').mono (by decide)
    · cases hd'
  · exact emits_runFileAction _ _

theorem within_onSelectedSid_fileTransfer (sid : Nat) (hft : sc.fileTransfer.isSome = true) :
    Within .fileTransfer d (d.onSelectedSid b p sc sid).1 := by
  unfold onSelectedSid
  split
  · exact .refl _ d
  split
  · exact .one rfl
  split
  · have hread : ∀ dir showHidden, Emits [.file] d
        (sendFs { d with delayedReadDir := none } (.readDir dir showHidden)) :=
      fun dir showHidden => .emit (.of_out rfl) rfl
    exact .of_seen (hread _ _) (by decide) rfl
  · exact .refl _ d

theorem within_fileTransfer {userToken : Bool} {msg : Message} (hft : sc.fileTransfer.isSome = true)
    (h : isFileTransferScopedMessage b.windows msg = true) :
    Within .fileTransfer d (d.onAuthorizedMessage b p sc lr userToken msg).1 := by
  cases msg with
  | fileAction fa => exact .of_seen (emits_onFileAction _ fa) (by decide) (seen_onFileAction _ fa)
  | fileResponse fr => exact .of_seen (emits_onFileResponse fr) (by decide) (seen_onFileResponse fr)
  | misc m =>
    cases m with
    | none => cases h
    | some m =>
      cases m with
      | selectedSid sid =>
        have hw : b.windows = true := h
        unfold onAuthorizedMessage onMisc
        dsimp only
        rw [if_pos hw]
        exact within_onSelectedSid_fileTransfer sid hft
      | _ => cases h
  | _ => cases h

/-! ### A port forward and a terminal -/

theorem within_portForward {userToken : Bool} {msg : Message}
    (h : isPortForwardScopedMessage msg = true) :
    Within .portForward d (d.onAuthorizedMessage b p sc lr userToken msg).1 := by
  cases msg with
  | portForwardChannel frame =>
    unfold onAuthorizedMessage
    dsimp only
    split
    · exact .one rfl
    · exact .refl _ d
  | _ => cases h

theorem within_applyTerminalPersistent (serviceId : String) :
    Within .terminal d (d.applyTerminalPersistent b serviceId o) := by
  refine .of_seen (emits_applyTerminalPersistent serviceId) (by decide) ?_
  unfold applyTerminalPersistent
  split
  · rfl
  · split <;> rfl

theorem within_terminal {userToken : Bool} {msg : Message} (hty : d.authed = some .terminal)
    (h : isTerminalScopedMessage msg = true) :
    Within .terminal d (d.onAuthorizedMessage b p sc lr userToken msg).1 := by
  cases msg with
  | terminalAction action =>
    unfold onAuthorizedMessage
    dsimp only
    split
    · exact .refl _ d
    · refine .of_seen (emits_handleTerminalAction userToken action) (by decide) ?_
      unfold handleTerminalAction
      dsimp only
      split <;> rfl
  | misc m =>
    cases m with
    | none => cases h
    | some m =>
      cases m with
      | chatMessage text =>
        have hchat : Emits [.other] d (d.sendToCm (.chatMessage text)) := .one rfl
        exact .of_seen (hchat.trans (.of_out rfl)) (by decide) rfl
      | option o =>
        unfold onAuthorizedMessage onMisc
        dsimp only
        rw [if_neg (by simp [hty]), hty]
        split
        · rename_i s hs
          have hs : (scopedTerminalLoginOption o).1 = some s := hs
          rw [updateOptions_terminal _ _ hs]
          exact within_applyTerminalPersistent _
        · exact .refl _ d
      | _ => cases h
  | _ => cases h

/-! ### A camera session -/

theorem remoteOptions_subscribe (s : Service) (v : Bool) :
    (d.subscribe b s v).remoteOptions = d.remoteOptions := by
  unfold subscribe
  split
  · split <;> rfl
  · rfl

theorem remoteOptions_resubscribeAudio : (d.resubscribeAudio b).remoteOptions = d.remoteOptions := by
  unfold resubscribeAudio
  split
  · split
    · exact remoteOptions_subscribe _ _
    · rfl
  · exact remoteOptions_subscribe _ _

theorem remoteOptions_sendDisplayChanged (idx : Nat) :
    (d.sendDisplayChanged p idx).remoteOptions = d.remoteOptions := by
  unfold sendDisplayChanged
  split <;> rfl

theorem remoteOptions_handleSwitchDisplay (version : String) (display width height : Int)
    (hcam : sc.viewCamera = true) :
    (d.handleSwitchDisplay b p sc version display width height).remoteOptions = d.remoteOptions := by
  unfold handleSwitchDisplay
  dsimp only
  split
  · rfl
  split
  · rfl
  · rename_i d' hd'
    rw [remoteOptions_sendDisplayChanged, if_neg (by simp [hcam])]
    unfold switchDisplayTo at hd'
    split at hd'
    · cases hd'
    · cases hd'
      refine (remoteOptions_subscribe _ _).trans ?_
      split
      · exact remoteOptions_subscribe _ _
      · rfl

theorem remoteOptions_addVideoServices (src : VideoSource) (l : List Nat) :
    (l.foldl (fun d i => d.addVideoService (getServiceName src i)) d).remoteOptions = d.remoteOptions := by
  induction l generalizing d with
  | nil => rfl
  | cons i l ih => exact ih

theorem remoteOptions_captureDisplays (add sub set : List Int) :
    (d.captureDisplays b p sc add sub set).remoteOptions = d.remoteOptions := by
  unfold captureDisplays
  dsimp only
  split
  · rfl
  · rw [← remoteOptions_addVideoServices (d := d) sc.videoSource
      (((add.map toUsize).filter (· < p.videoSourceCount sc.videoSource)) ++
        (set.map toUsize).filter (· < p.videoSourceCount sc.videoSource))]
    generalize List.foldl _ d _ = d₁
    have hcap : (if (!add.isEmpty) = true then d₁.captureServices sc.videoSource
          ((add.map toUsize).filter (· < p.videoSourceCount sc.videoSource)) true false
        else if (!sub.isEmpty) = true then d₁.captureServices sc.videoSource
          ((sub.map toUsize).filter (· < p.videoSourceCount sc.videoSource)) false true
        else d₁.captureServices sc.videoSource
          ((set.map toUsize).filter (· < p.videoSourceCount sc.videoSource)) true true).remoteOptions =
        d₁.remoteOptions := by
      split
      · rfl
      · split <;> rfl
    generalize (if (!add.isEmpty) = true then _ else _ : Desk) = d₂ at hcap ⊢
    split
    · exact (remoteOptions_subscribe _ _).trans hcap
    · exact hcap

theorem within_updateOptions_viewCamera {s : OptionMessage} (version serviceId : String)
    (h : (scopedViewCameraOption o).1 = some s) :
    Within .viewCamera d (d.updateOptions b p version serviceId s) := by
  rw [updateOptions_viewCamera _ _ h]
  have hquality : ∀ d : Desk, (d.applyImageQuality s).remoteOptions = d.remoteOptions := by
    intro d
    unfold applyImageQuality
    split
    · rfl
    · rename_i q _
      dsimp only
      generalize (if q = .notSet then _ else _ : Int) = quality
      split <;> rfl
  have hfps : ∀ d : Desk, (d.applyCustomFps s).remoteOptions = d.remoteOptions := by
    intro d
    unfold applyCustomFps
    split <;> rfl
  have hcodec : ∀ d : Desk, (d.applySupportedDecoding s).remoteOptions = d.remoteOptions := by
    intro d
    unfold applySupportedDecoding
    split <;> rfl
  refine .of_emits_camera (((emits_applyImageQuality.trans emits_applyCustomFps).trans
    emits_applySupportedDecoding).trans (.of_out out_applyDisableAudio)) (by decide) ?_
  rw [← hquality d, ← hfps (d.applyImageQuality s), ← hcodec ((d.applyImageQuality s).applyCustomFps s)]
  unfold applyDisableAudio
  split
  · exact remoteOptions_resubscribeAudio
  · rfl

theorem within_onSelectedSid_viewCamera (sid : Nat) (hft : sc.fileTransfer = none)
    (hcam : sc.viewCamera = true) : Within .viewCamera d (d.onSelectedSid b p sc sid).1 := by
  unfold onSelectedSid
  split
  · exact .refl _ d
  split
  · exact .one rfl
  rw [if_neg (by simp [hft])]
  refine .of_emits_camera (emits_addCameraConnection _) (by decide) ?_
  unfold addCameraConnection
  split
  · exact remoteOptions_subscribe _ _
  · rfl

theorem within_onMisc_viewCamera {m : Misc} (hty : d.authed = some .viewCamera)
    (hft : sc.fileTransfer = none) (hcam : sc.viewCamera = true)
    (h : isViewCameraScopedMisc b.windows m = true) :
    Within .viewCamera d (d.onMisc b p sc lr m).1 := by
  cases m with
  | switchDisplay display width height =>
    have hemit : Emits [.display, .other] d
        (d.handleSwitchDisplay b p sc lr.version display width height) :=
      emits_handleSwitchDisplay _ _ _ _ (by decide) (by decide) fun hno => by simp [hcam] at hno
    exact .of_emits_camera hemit (by decide) (remoteOptions_handleSwitchDisplay _ _ _ _ hcam)
  | captureDisplays add sub set =>
    exact .of_emits_camera (emits_captureDisplays add sub set) (by decide)
      (remoteOptions_captureDisplays add sub set)
  | refreshVideo refresh =>
    unfold onMisc
    dsimp only
    split
    · exact .one rfl
    · exact .refl _ d
  | refreshVideoDisplay display =>
    unfold onMisc
    dsimp only
    split
    · exact .one rfl
    · exact .refl _ d
  | videoReceived => exact .one rfl
  | chatMessage text =>
    have hchat : Emits [.other] d (d.sendToCm (.chatMessage text)) := .one rfl
    exact .of_emits_camera (hchat.trans (.of_out rfl)) (by decide) rfl
  | audioFormat format =>
    unfold onMisc
    dsimp only
    split
    · have hthread : Emits [.other] d (d.emit (.audioThread format)) := .one rfl
      exact .of_emits_camera (hthread.trans (.of_out rfl)) (by decide) rfl
    · exact .refl _ d
  | clientRecordStatus status => exact .one rfl
  | messageQuery display =>
    exact .of_emits_camera (emits_sendDisplayChanged _) (by decide) (remoteOptions_sendDisplayChanged _)
  | togglePrivacyMode implKey on =>
    unfold onMisc
    dsimp only
    rw [if_neg (by simp [hcam])]
    exact .refl _ d
  | toggleVirtualDisplay display on =>
    unfold onMisc
    dsimp only
    rw [if_neg (by simp [hcam])]
    exact .refl _ d
  | changeResolution r =>
    unfold onMisc
    dsimp only
    rw [if_neg (by simp [hcam])]
    exact .refl _ d
  | changeDisplayResolution display r =>
    unfold onMisc
    dsimp only
    rw [if_neg (by simp [hcam])]
    exact .refl _ d
  | option o =>
    unfold onMisc
    dsimp only
    rw [if_neg (by simp [hty]), hty]
    split
    · rename_i s hs
      have hs : (scopedViewCameraOption o).1 = some s := hs
      exact within_updateOptions_viewCamera _ _ hs
    · exact .refl _ d
  | selectedSid sid =>
    unfold onMisc
    dsimp only
    split
    · exact within_onSelectedSid_viewCamera sid hft hcam
    · exact .refl _ d
  | _ => cases h

theorem within_viewCamera {userToken : Bool} {msg : Message} (hty : d.authed = some .viewCamera)
    (hft : sc.fileTransfer = none) (hcam : sc.viewCamera = true)
    (h : isViewCameraScopedMessage b.windows msg = true) :
    Within .viewCamera d (d.onAuthorizedMessage b p sc lr userToken msg).1 := by
  have hauthed : d.isAuthedViewCameraConn = true := by simp [isAuthedViewCameraConn, hty]
  cases msg with
  | screenshotRequest display sid =>
    exact .of_emits_camera (emits_onScreenshotRequest display sid) (by decide) rfl
  | misc m =>
    cases m with
    | none => cases h
    | some m => exact within_onMisc_viewCamera hty hft hcam h
  | mouseEvent e =>
    unfold onAuthorizedMessage onMouseEvent
    dsimp only
    rw [if_pos hauthed]
    exact .refl _ d
  | pointerDeviceEvent body =>
    unfold onAuthorizedMessage onPointerDeviceEvent
    dsimp only
    rw [if_pos hauthed]
    exact .refl _ d
  | keyEvent e =>
    unfold onAuthorizedMessage onKeyEvent
    dsimp only
    rw [if_pos hauthed]
    split <;> exact .refl _ d
  | audioFrame data =>
    unfold onAuthorizedMessage
    dsimp only
    split
    · exact .one rfl
    · exact .refl _ d
  | voiceCallRequest reqTimestamp isConnect =>
    refine .of_emits_camera (emits_onVoiceCallRequest reqTimestamp isConnect) (by decide) ?_
    unfold onAuthorizedMessage onVoiceCallRequest closeVoiceCall
    dsimp only
    split
    · rfl
    · split
      · exact remoteOptions_subscribe _ _
      · rfl
  | voiceCallResponse accepted => exact .refl _ d
  | _ => cases h

theorem remoteOptions_ite {q : Prop} [Decidable q] {d₂ : Desk} {r : RemoteOptions}
    (h1 : d₁.remoteOptions = r) (h2 : d₂.remoteOptions = r) :
    (if q then d₁ else d₂).remoteOptions = r := by
  split
  · exact h1
  · exact h2

theorem remoteOptions_onClose (lock reconnected : Bool) :
    (d.onClose b lock reconnected).remoteOptions = d.remoteOptions := by
  have hsend : ∀ (d : Desk) (m : ToCm), (d.sendToCm m).remoteOptions = d.remoteOptions :=
    fun _ _ => rfl
  refine remoteOptions_ite rfl (remoteOptions_ite ?_ ?_)
  · exact (hsend _ _).trans (remoteOptions_ite rfl rfl)
  · exact (hsend _ _).trans (remoteOptions_ite rfl rfl)

theorem type_fileTransfer (h : sc.authConnType = .fileTransfer) : sc.fileTransfer.isSome = true := by
  unfold SessionScope.authConnType at h
  split_ifs at h with hft
  exact hft

theorem type_viewCamera (h : sc.authConnType = .viewCamera) :
    sc.fileTransfer = none ∧ sc.viewCamera = true := by
  unfold SessionScope.authConnType at h
  split_ifs at h with hft hpf hcam
  exact ⟨by simpa using hft, hcam⟩

/-- A terminal action reaches the terminal of a session that is not one. -/
def Strays (b : Build) (t : AuthConnType) (msg : Message) : Prop :=
  t = .remote ∧ b.mobile = false ∧ ∃ action, msg = .terminalAction action

/-- What a message does past the gate stays within the type of the session. -/
theorem within_onAuthorizedMessage {userToken : Bool} {msg : Message} (hty : d.authed = some t)
    (hsc : sc.authConnType = t) (hgate : authorizedMessageScopeViolation b.windows t msg = none)
    (hstray : ¬Strays b t msg) :
    Within t d (d.onAuthorizedMessage b p sc lr userToken msg).1 := by
  unfold authorizedMessageScopeViolation at hgate
  split_ifs at hgate with hhouse hnoop hallowed
  · -- what every session may be sent is not handled here
    cases msg with
    | misc m =>
      cases m with
      | none => cases hhouse
      | some m =>
        cases m with
        | closeReason reason => exact .refl _ d
        | _ => cases hhouse
    | loginRequest lr => exact .refl _ d
    | testDelay time fromClient => exact .refl _ d
    | _ => cases hhouse
  · rw [onAuthorizedMessage_noop hty hnoop]
    exact .refl _ d
  · cases t with
    | remote =>
      refine .of_emits_remote (emits_onAuthorizedMessage_remote msg (isRemote_of_authConnType sc hsc)
        hty fun action hact => ?_) (by decide)
      cases hm : b.mobile with
      | true => rfl
      | false => exact absurd ⟨rfl, hm, action, hact⟩ hstray
    | fileTransfer => exact within_fileTransfer (type_fileTransfer hsc) hallowed
    | portForward => exact within_portForward hallowed
    | viewCamera =>
      exact within_viewCamera hty (type_viewCamera hsc).1 (type_viewCamera hsc).2 hallowed
    | terminal => exact within_terminal hty hallowed

end Limited

end Desk

/-! ## A turn of an authorized connection -/

/-- What a session of the type has no use for. -/
def OutOfScope (windows : Bool) (t : AuthConnType) (msg : Message) : Prop :=
  (authorizedMessageScopeViolation windows t msg).isSome = true ∨ isNoopCompat t msg = true

/-- The connection is as it was, but for the record of violations, or it has been closed for one. The
loop may have gone over to forwarding meanwhile. -/
inductive Unmoved (e : Env) (c c' : Conn) : Prop
  | ignored (same : c' = { (c.clear e) with phase := c'.phase })
  | barred (family : String)
      (same : c' = { (c.clear e) with
        desk := (c.clear e).desk.onScopeViolation e.toPlatform family
        phase := c'.phase })
  | closed (phase : c'.phase = .ended) (login : c'.login = c.login)
      (effects : ∀ eff ∈ c'.desk.out, eff.kind = .violation ∨ eff.kind = .closing)

/-- Only the fields of the type are set. -/
def OwnFields : AuthConnType → OptionMessage → Prop
  | .viewCamera, o => OnlyViewCameraFields o
  | .terminal, o => OnlyTerminalFields o
  | _, _ => True

/-- What a message may do to a connection authorized as `t`. -/
structure Confined (b : Build) (e : Env) (t : AuthConnType) (msg : Message) (c c' : Conn) : Prop where
  outside : OutOfScope b.windows t msg → Unmoved e c c'
  within : Desk.Within t (c.clear e).desk c'.desk
  reached : ∀ o, msg = .misc (some (.option o)) → t = .viewCamera ∨ t = .terminal →
    Unmoved e c c' ∨ ∃ s, OwnFields t s ∧ c'.desk = (c.clear e).desk.updateOptions b e.toPlatform
      c.login.lr.version c.scope.terminalServiceId s
  channels : ∀ eff ∈ c'.desk.out, eff.kind = .channel → t = .portForward ∧ c.scope.mux.isSome = true

section Turn

open Desk

variable {k : Crypto} {b : Build} {e : Env} {sh : Shared} {c c' : Conn} {t : AuthConnType}
  {msg : Message}

theorem afterHandler_phase (wait : Bool) (sh : Shared) (c : Conn) :
    (afterHandler b wait ⟨sh, c, .keep⟩).2 =
      { c with phase := (afterHandler b wait ⟨sh, c, .keep⟩).2.phase } := by
  unfold afterHandler
  dsimp only
  split <;> rfl

theorem within_onClose {d : Desk} (lock reconnected : Bool) :
    Within t d (d.onClose b lock reconnected) where
  effects eff he := by
    refine (emits_onClose lock reconnected eff he).imp_right fun hk => ?_
    rw [List.mem_singleton.1 hk]
    cases t <;> rfl
  displays _ s hs := by
    have hsubs : (d.onClose b lock reconnected).subs = d.subs :=
      congrArg Guard.subs (guard_onClose d b lock reconnected)
    exact hsubs ▸ hs
  options _ := remoteOptions_onClose lock reconnected

theorem within_endConn (sh : Shared) (c : Conn) : Within t c.desk (endConn b sh c).2.desk := by
  have hclose : Within t c.desk (c.onClose b true sh).desk := within_onClose _ _
  exact ⟨hclose.effects, fun _ _ hs => (nomatch hs), hclose.options⟩

theorem Desk.Within.trans {d d₁ d₂ : Desk} (h1 : Within t d d₁) (h2 : Within t d₁ d₂) :
    Within t d d₂ where
  effects eff he := by
    rcases h2.effects eff he with he | he
    · exact h1.effects eff he
    · exact .inr he
  displays ht s hs := h1.displays ht s (h2.displays ht s hs)
  options ht := (h2.options ht).trans (h1.options ht)

/-- What the loop does after a handler adds nothing but what closing does. -/
theorem within_afterHandler {wait : Bool} {o : Outcome} {d : Desk} (h : Within t d o.conn.desk) :
    Within t d (afterHandler b wait o).2.desk := by
  obtain ⟨sh, c, g⟩ := o
  cases g with
  | close => exact h.trans (within_endConn sh c)
  | suspended => exact h
  | keep =>
    rw [afterHandler_phase]
    exact h

theorem within_onSwitchSidesResponse (r : SwitchSidesResponse) (hauth : c.login.authorized = true) :
    Within .remote c.desk (onSwitchSidesResponse b e r sh c).conn.desk := by
  unfold onSwitchSidesResponse
  split
  · exact .refl _ _
  split
  · exact .refl _ _
  rename_i lr _
  dsimp only
  split
  · split
    · exact .one rfl
    · generalize (sh.takeSwitchSidesUuid e.now lr.myId.1).2 = sh₁
      have hid : ∀ c₁ : Conn, Within .remote c₁.desk (checkIdWhitelist e sh₁ c₁).2.1.desk ∧
          (checkIdWhitelist e sh₁ c₁).2.1.login = c₁.login := by
        intro c₁
        unfold checkIdWhitelist
        split
        · exact ⟨.refl _ _, rfl⟩
        · dsimp only
          split
          · exact ⟨.one rfl, rfl⟩
          · split
            · exact ⟨.refl _ _, rfl⟩
            · exact ⟨.one rfl, rfl⟩
      obtain ⟨hdesk, hlogin⟩ := hid { c.resetSessionScopeForLogin with
        login := c.resetSessionScopeForLogin.login.takeRequest e lr }
      have hreset : Within .remote c.desk c.resetSessionScopeForLogin.desk :=
        ⟨fun _ h => .inl h, fun h => by simp at h, fun h => absurd rfl h⟩
      generalize checkIdWhitelist e sh₁ _ = r at hdesk hlogin ⊢
      obtain ⟨sh₂, c₂, ok⟩ := r
      cases ok with
      | false => exact hreset.trans hdesk
      | true =>
        have hauth₂ : c₂.login.authorized = true := by
          rw [hlogin]
          exact hauth
        have hgo : ∀ c₃ : Conn, c₃.login.authorized = true →
            (logon b e .switchSides sh₂ c₃).conn = c₃.tryStartCm c₃.login.authorized := by
          intro c₃ h
          rw [logon_authorized h]
          rfl
        dsimp only
        rw [hgo { c₂ with login := { c₂.login with fromSwitch := true } } hauth₂]
        exact (hreset.trans hdesk).trans (.one rfl)
  · exact .refl _ _

theorem emits_endConn (sh : Shared) (c : Conn) : Emits [.closing] c.desk (endConn b sh c).2.desk := by
  have hclose : Emits [.closing] c.desk (c.onClose b true sh).desk := emits_onClose _ _
  exact fun eff he => hclose eff he

/-- The kinds of effects any session can have. -/
def commonKinds : List EffectKind := [.violation, .closing, .other]

/-- A handler without an effect of a type's own opens no channel, and neither does the loop after it. -/
theorem channels_afterHandler {wait : Bool} {o : Outcome} {p : Prop}
    (h : Emits commonKinds (c.clear e).desk o.conn.desk) :
    ∀ eff ∈ (afterHandler b wait o).2.desk.out, eff.kind = .channel → p := by
  have hafter : Emits commonKinds (c.clear e).desk (afterHandler b wait o).2.desk := by
    obtain ⟨sh, c, g⟩ := o
    cases g with
    | close => exact h.trans ((emits_endConn sh c).mono (by decide))
    | suspended => exact h
    | keep =>
      rw [afterHandler_phase]
      exact h
  intro eff he hkind
  rcases hafter eff he with hout | hks
  · cases hout
  · rw [hkind] at hks
    exact absurd hks (by decide)

/-- A violation is logged, and the connection goes on as it was or is closed. -/
theorem unmoved_onViolation (wait : Bool) (sh : Shared) (family : String) :
    Unmoved e c (afterHandler b wait (onViolation b e family sh (c.clear e))).2 := by
  have hlog : Emits [.violation, .closing] (c.clear e).desk
      ((c.clear e).desk.onScopeViolation e.toPlatform family) := (emits_onScopeViolation family).mono (by decide)
  unfold onViolation
  dsimp only
  split
  · refine .closed rfl rfl fun eff he => ?_
    have hend := emits_endConn (b := b) (closeNoRetry b true "Connection not allowed" sh
      ((c.clear e).onDesk (·.onScopeViolation e.toPlatform family))).1
      (closeNoRetry b true "Connection not allowed" sh
        ((c.clear e).onDesk (·.onScopeViolation e.toPlatform family))).2
    have hno : Emits [.closing] ((c.clear e).desk.onScopeViolation e.toPlatform family)
        (closeNoRetry b true "Connection not allowed" sh
          ((c.clear e).onDesk (·.onScopeViolation e.toPlatform family))).2.desk :=
      .trans (.one rfl) (emits_onClose _ _)
    have hall := hlog.trans ((hno.mono (by decide)).trans (hend.mono (by decide)))
    rcases hall eff he with he | hk
    · cases he
    · simpa using hk
  · exact .barred family (afterHandler_phase _ _ _)

theorem emits_onViolation (family : String) (sh : Shared) :
    Emits commonKinds (c.clear e).desk (onViolation b e family sh (c.clear e)).conn.desk := by
  have hlog : Emits commonKinds (c.clear e).desk
      ((c.clear e).desk.onScopeViolation e.toPlatform family) :=
    (emits_onScopeViolation family).mono (by decide)
  unfold onViolation
  dsimp only
  split
  · exact hlog.trans ((Emits.one rfl).trans ((emits_onClose _ _).mono (by decide)))
  · exact hlog

theorem confined_onViolation (wait : Bool) (sh : Shared) (family : String) :
    Confined b e t msg c (afterHandler b wait (onViolation b e family sh (c.clear e))).2 := by
  have hunmoved := unmoved_onViolation (b := b) (e := e) (c := c) wait sh family
  refine ⟨fun _ => hunmoved, within_afterHandler ?_, fun _ _ _ => .inl hunmoved,
    channels_afterHandler (emits_onViolation family sh)⟩
  have hwithin : Within t (c.clear e).desk ((c.clear e).desk.onScopeViolation e.toPlatform family) := by
    refine .of_seen (emits_onScopeViolation family) (fun kind hk => ?_) ?_
    · rw [List.mem_singleton.1 hk]
      cases t <;> rfl
    · unfold Desk.onScopeViolation
      dsimp only
      split <;> rfl
  unfold onViolation
  dsimp only
  split
  · have hreason : ∀ d : Desk, Within t d (d.send (.closeReason "Connection not allowed")) :=
      fun d => .one (by cases t <;> rfl)
    exact (hwithin.trans (hreason _)).trans (within_onClose _ _)
  · exact hwithin

/-- What is let through for every session is not out of scope. -/
theorem not_outOfScope_housekeeping {windows : Bool} (h : isConnectionHousekeepingMessage msg = true) :
    ¬OutOfScope windows t msg := by
  rintro (hv | hn)
  · simp [authorizedMessageScopeViolation, h] at hv
  · cases msg with
    | misc m =>
      cases m with
      | none => cases h
      | some m =>
        cases m with
        | closeReason reason => cases t <;> cases hn
        | _ => cases h
    | loginRequest lr => cases t <;> cases hn
    | testDelay time fromClient => cases t <;> cases hn
    | _ => cases h

/-- A message that leaves the desk within its type, opens no channel and is not about options. -/
theorem confined_of_within (hin : ¬OutOfScope b.windows t msg) (hopt : ∀ o, msg ≠ .misc (some (.option o)))
    (h : Within t (c.clear e).desk c'.desk)
    (hch : ∀ eff ∈ c'.desk.out, eff.kind = .channel → t = .portForward ∧ c.scope.mux.isSome = true) :
    Confined b e t msg c c' :=
  ⟨fun hout => absurd hout hin, h, fun o ho => absurd ho (hopt o), hch⟩

theorem isPortForward_of_portForward {sc : SessionScope} (h : sc.authConnType = .portForward) :
    sc.isPortForward = true := by
  unfold SessionScope.authConnType at h
  split_ifs at h with hft hpf
  exact hpf

/-- A handler that stays within the type opens channels for a port forward at most. -/
theorem channels_of_within {d : Desk} (h : Within t (c.clear e).desk d) {eff : Effect} (he : eff ∈ d.out)
    (hkind : eff.kind = .channel) : t = .portForward := by
  rcases h.effects eff he with hout | hforbids
  · cases hout
  · rw [hkind] at hforbids
    cases t with
    | portForward => rfl
    | remote | fileTransfer | viewCamera | terminal => cases hforbids

theorem ownFields_scoped {o s : OptionMessage} (ht : t = .viewCamera ∨ t = .terminal)
    (h : scopedUpdateOptionMessage (some t) o = some s) : OwnFields t s := by
  rcases scopedUpdateOptionMessage_scoped h with ⟨rfl, hs⟩ | ⟨rfl, hs⟩
  · exact hs
  · exact hs

theorem within_onTestDelay {d : Desk} {p : Platform} (time : Int) (fromClient : Bool) :
    Within t d (d.onTestDelay p time fromClient) := by
  refine .of_seen (emits_onTestDelay time fromClient) (fun kind hk => ?_) ?_
  · rw [List.mem_singleton.1 hk]
    cases t <;> rfl
  · unfold Desk.onTestDelay
    split
    · rfl
    · split <;> rfl

/-- A message past the gate that is about no login. -/
theorem confined_handled {wait : Bool} (hty : c.desk.authed = some t) (hsc : c.scope.authConnType = t)
    (hauth : c.login.authorized = true)
    (hgate : authorizedMessageScopeViolation b.windows t msg = none) (hstray : ¬Strays b t msg) :
    let o : Outcome := if c.login.authorized && c.scope.socket.isNone then
        let r := (c.clear e).desk.onAuthorizedMessage b e.toPlatform c.scope c.login.lr
          c.login.terminalUserToken.isSome msg
        ⟨sh, { (c.clear e) with desk := r.1 }, if r.2 then .keep else .close⟩
      else ⟨sh, (c.clear e), .keep⟩
    Confined b e t msg c (afterHandler b wait o).2 := by
  intro o
  cases hs : c.scope.socket with
  | some target =>
    have ho : o = ⟨sh, (c.clear e), .keep⟩ := if_neg (by simp [hs])
    rw [ho]
    have hunmoved : Unmoved e c (afterHandler b wait ⟨sh, (c.clear e), .keep⟩).2 :=
      .ignored (afterHandler_phase _ _ _)
    exact ⟨fun _ => hunmoved, within_afterHandler (.refl _ _), fun _ _ _ => .inl hunmoved,
      channels_afterHandler (.refl _)⟩
  | none =>
    have ho : o = ⟨sh, { (c.clear e) with desk := ((c.clear e).desk.onAuthorizedMessage b e.toPlatform c.scope
        c.login.lr c.login.terminalUserToken.isSome msg).1 },
        if ((c.clear e).desk.onAuthorizedMessage b e.toPlatform c.scope c.login.lr
          c.login.terminalUserToken.isSome msg).2 then .keep else .close⟩ :=
      if_pos (by simp [hs, hauth])
    rw [ho]
    have hwithin : Within t (c.clear e).desk ((c.clear e).desk.onAuthorizedMessage b e.toPlatform c.scope
        c.login.lr c.login.terminalUserToken.isSome msg).1 :=
      within_onAuthorizedMessage (d := (c.clear e).desk) hty hsc hgate hstray
    refine ⟨fun hout => ?_, within_afterHandler hwithin, fun opt hopt htype => ?_, fun eff he hkind => ?_⟩
    · have hnoop : isNoopCompat t msg = true := by
        rcases hout with hv | hn
        · simp [hgate] at hv
        · exact hn
      rw [onAuthorizedMessage_noop (d := (c.clear e).desk) hty hnoop]
      exact .ignored (afterHandler_phase _ _ _)
    · subst hopt
      have hne : ¬(c.clear e).desk.authed = some .remote := by
        have hty' : (c.clear e).desk.authed = some t := hty
        rw [hty']
        rcases htype with rfl | rfl <;> simp
      rw [onAuthorizedMessage_option hne]
      cases hs : scopedUpdateOptionMessage (c.clear e).desk.authed opt with
      | some s =>
        refine .inr ⟨s, ?_, ?_⟩
        · have hscoped : scopedUpdateOptionMessage (some t) opt = some s := hty ▸ hs
          exact ownFields_scoped htype hscoped
        · exact congrArg Conn.desk (afterHandler_phase _ _ _)
      | none => exact .inl (.ignored (afterHandler_phase _ _ _))
    · have ht : t = .portForward := channels_of_within (within_afterHandler hwithin) he hkind
      refine ⟨ht, ?_⟩
      -- a port forward that is not connected to a target is one that is multiplexed
      have hpf := isPortForward_of_portForward (hsc.trans ht)
      simpa [SessionScope.isPortForward, hs] using hpf

/-- A message on an authorized connection. -/
theorem confined_onMessage {wait : Bool} (hwf : c.Wf) (hlive : c.phase ≠ .ended)
    (hauth : c.login.authorized = true) (hty : c.desk.authed = some t) (hstray : ¬Strays b t msg) :
    Confined b e t msg c (afterHandler b wait (onMessage k b e msg sh (c.clear e))).2 := by
  have hsc : c.scope.authConnType = t := Option.some.inj ((hwf.typed hauth hlive).1.symm.trans hty)
  have hgate : authorizedScopeViolation b.windows (c.clear e).desk.authed msg =
      authorizedMessageScopeViolation b.windows t msg := by
    have hty' : (c.clear e).desk.authed = some t := hty
    rw [hty']
    rfl
  unfold onMessage
  split
  · refine confined_of_within (not_outOfScope_housekeeping rfl) (by simp) (within_afterHandler ?_)
      (channels_afterHandler ((emits_onClose _ _).mono (by decide)))
    exact within_onClose _ _
  rename_i hreason
  rw [if_pos (show (c.clear e).login.authorized = true from hauth)]
  split
  · exact confined_of_within (not_outOfScope_housekeeping rfl) (by simp)
      (within_afterHandler (.refl _ _)) (channels_afterHandler (.refl _))
  rename_i hlogin
  rw [hgate]
  split
  · exact confined_onViolation _ _ _
  rename_i hpass
  have hin : isNoopCompat t msg = false → ¬OutOfScope b.windows t msg := by
    rintro hno (hv | hn)
    · rw [hpass] at hv
      cases hv
    · rw [hno] at hn
      cases hn
  cases msg with
  | loginRequest lr => exact absurd rfl (hlogin lr)
  | auth2fa tfa =>
    have hkeep : onAuth2fa k b e tfa sh (c.clear e) = ⟨sh, (c.clear e), .keep⟩ := by
      unfold onAuth2fa
      rw [show (c.clear e).login.awaiting2fa = false from (hwf.typed hauth hlive).2]
      rfl
    have hgo : dispatch k b e (.auth2fa tfa) sh (c.clear e) = ⟨sh, (c.clear e), .keep⟩ := hkeep
    rw [hgo]
    exact confined_of_within (hin (by cases t <;> rfl)) (by simp) (within_afterHandler (.refl _ _))
      (channels_afterHandler (.refl _))
  | testDelay time fromClient =>
    refine confined_of_within (not_outOfScope_housekeeping rfl) (by simp) (within_afterHandler ?_)
      (channels_afterHandler ((emits_onTestDelay time fromClient).mono (by decide)))
    exact within_onTestDelay _ _
  | switchSidesResponse r =>
    have hrem : t = .remote := by
      have hnone : authorizedScopeViolation b.windows (some t) (.switchSidesResponse r) = none := hpass
      exact Option.some.inj (remote_of_switchSides hnone)
    subst hrem
    refine confined_of_within (hin rfl) (by simp) (within_afterHandler (within_onSwitchSidesResponse r hauth))
      fun eff he hkind => ?_
    cases channels_of_within (within_afterHandler (within_onSwitchSidesResponse r hauth)) he hkind
  | empty | mouseEvent _ | audioFrame _ | keyEvent _ | clipboard _ | fileAction _ | fileResponse _
  | misc _ | cliprdr _ | voiceCallRequest _ _ | voiceCallResponse _ | pointerDeviceEvent _
  | multiClipboards _ | screenshotRequest _ _ | screenshotResponse | terminalAction _
  | terminalResponse | portForwardChannel _ | other => exact confined_handled hty hsc hauth hpass hstray


/-- A terminal action on a desktop session reaches the terminal. -/
theorem not_confined_of_strays {wait : Bool} (hwf : c.Wf) (hlive : c.phase ≠ .ended)
    (hauth : c.login.authorized = true) (hty : c.desk.authed = some t) (hstray : Strays b t msg) :
    ¬Confined b e t msg c (afterHandler b wait (onMessage k b e msg sh (c.clear e))).2 := by
  obtain ⟨rfl, hdesktop, action, rfl⟩ := hstray
  have hrem : c.scope.authConnType = .remote :=
    Option.some.inj ((hwf.typed hauth hlive).1.symm.trans hty)
  have hsock : c.scope.socket = none :=
    (socket_of_not_isPortForward (isPortForward_of_remote hrem)).1
  have hgate : authorizedScopeViolation b.windows (c.clear e).desk.authed (.terminalAction action) = none := by
    have hty' : (c.clear e).desk.authed = some .remote := hty
    rw [hty']
    rfl
  have hgo : onMessage k b e (.terminalAction action) sh (c.clear e) =
      ⟨sh, { (c.clear e) with
        desk := (c.clear e).desk.handleTerminalAction c.login.terminalUserToken.isSome action }, .keep⟩ := by
    unfold onMessage
    dsimp only
    rw [if_pos (show (c.clear e).login.authorized = true from hauth), hgate]
    unfold dispatch
    dsimp only
    rw [if_pos (by simp [Conn.clear, Conn.onDesk, hauth, hsock])]
    unfold Desk.onAuthorizedMessage
    dsimp only
    rw [if_neg (by simp [hdesktop])]
    rfl
  rw [hgo, afterHandler_phase]
  intro hconf
  have hmem : Effect.terminalAction action ∈ ((c.clear e).desk.handleTerminalAction
      c.login.terminalUserToken.isSome action).out := by
    unfold Desk.handleTerminalAction
    dsimp only
    split
    · exact List.mem_cons_of_mem _ (List.mem_cons_self ..)
    · exact List.mem_cons_self ..
  rcases hconf.within.effects _ hmem with hout | hk
  · cases hout
  · cases hk

end Turn

/-! ## Runs -/

/-- In every run, what a peer sends an authorized connection is confined to the type it was authorized
as, exactly if it is no terminal action for a desktop session; and the options of its login that are
applied are those of its type. -/
theorem confined_iff {k : Crypto} {b : Build} {h : History} {w w' : World} {i : Nat} {e : Env}
    {msg : Message} {c c' : Conn} {t : AuthConnType}
    (hx : Exec World.Init (World.step k b) ((w, .conn i e (.recv msg)) :: h) w')
    (hc : w.conns[i]? = some c) (hc' : w'.conns[i]? = some c') (hauth : c.login.authorized = true)
    (ht : c.desk.authed = some t) :
    (Confined b e t msg c c' ↔ ¬(t = .remote ∧ b.mobile = false ∧ ∃ action, msg = .terminalAction action)) ∧
      ∀ o s, (scopedLoginOption t o).1 = some s → OwnFields t s := by
  constructor
  · cases hx with
    | snoc hx hstep =>
      have hwf := World.wf_of_exec hx i c hc
      simp only [World.step, hc] at hstep
      obtain ⟨r, hr, rfl⟩ := Option.map_eq_some_iff.1 hstep
      rcases getElem?_set_eq_some hc' with ⟨-, rfl⟩ | ⟨hne, -⟩
      · have hrun : c.phase = .running := by
          unfold connStep at hr
          cases hph : c.phase with
          | running => rfl
          | connecting kont => simp [Conn.onDesk, hph] at hr
          | forwarding => simp [Conn.onDesk, hph] at hr
          | ended => simp [Conn.onDesk, hph] at hr
        have hlive : c.phase ≠ .ended := by simp [hrun]
        have hgo : connStep k b e (.recv msg) w.shared c = some (afterHandler b true (onMessage k b e msg
            (w.shared.touch e.now (c.clear e).login.sessionLastRecvTime) (c.clear e))) := by
          unfold connStep
          rw [show (c.onDesk fun d => { d with out := [], swapping := e.swapping }) = c.clear e from rfl]
          dsimp only
          rw [show (c.clear e).phase = .running from hrun]
        obtain rfl : afterHandler b true (onMessage k b e msg
            (w.shared.touch e.now (c.clear e).login.sessionLastRecvTime) (c.clear e)) = r :=
          Option.some.inj (hgo.symm.trans hr)
        refine ⟨fun hconf hstray => ?_, fun hstray => ?_⟩
        · exact not_confined_of_strays hwf hlive hauth ht hstray hconf
        · exact confined_onMessage hwf hlive hauth ht hstray
      · exact absurd rfl hne
  · intro o s hs
    cases t with
    | viewCamera => exact ownFields_scoped (.inl rfl) hs
    | terminal => exact ownFields_scoped (.inr rfl) hs
    | remote | fileTransfer | portForward => trivial

/-! ### A tunnel with many channels -/

def tunnelRequest : LoginRequest where
  myId := ⟨"407158236", by decide⟩
  union := some (.portForward { host := ⟨"RDP", by decide⟩, port := 0, multiplex := true })

/-- SHA-256 at the text of `tunnelRequest`. -/
def tunnelDigest : Bytes :=
  [130, 75, 174, 200, 61, 13, 41, 195, 52, 255, 244, 148, 83, 196, 197, 199, 172, 237, 4, 169, 165, 125, 191,
    255, 41, 117, 68, 18, 67, 90, 129, 35]

def Crypto.ofTunnel : Crypto :=
  { Crypto.unused with
    sha256 := fun bytes => if bytes = loginScopeInput tunnelRequest then tunnelDigest else [] }

def tunnelEnv : Env := { freshPassword := "3m7tdw" }

def keyPress : KeyEvent := ⟨true, true, some (.chr 97), .known .legacy⟩

/-- A tunnel is let in and opens a channel; then it tries to press a key. -/
theorem confined_iff_tunnel : ∃ w w' h c c', Exec World.Init (World.step .ofTunnel .linux)
      ((w, .conn 0 tunnelEnv (.recv (.keyEvent keyPress))) :: h) w' ∧
    h.map Prod.snd = [.conn 0 tunnelEnv (.recv (.portForwardChannel [8, 1])),
      .conn 0 tunnelEnv .authorize, .conn 0 tunnelEnv (.recv (.loginRequest tunnelRequest)),
      .start .plain] ∧
    w.conns[0]? = some c ∧ w'.conns[0]? = some c' ∧ c.login.authorized = true ∧
    c.desk.authed = some .portForward ∧ c.desk.out = [.openChannel [8, 1]] ∧
    OutOfScope Build.linux.windows .portForward (.keyEvent keyPress) ∧
    Confined .linux tunnelEnv .portForward (.keyEvent keyPress) c c' := by
  have hstart : Exec World.Init (World.step .ofTunnel .linux) [(World.idle "8k2xq4", .start .plain)] _ :=
    .snoc (.start (World.init_idle "8k2xq4")) rfl
  have hasked := hstart.snoc (e := .conn 0 tunnelEnv (.recv (.loginRequest tunnelRequest))) rfl
  have hin := hasked.snoc (e := .conn 0 tunnelEnv .authorize) rfl
  have hopen := hin.snoc (e := .conn 0 tunnelEnv (.recv (.portForwardChannel [8, 1]))) rfl
  have hkey := hopen.snoc (e := .conn 0 tunnelEnv (.recv (.keyEvent keyPress))) rfl
  refine ⟨_, _, _, _, _, hkey, rfl, rfl, rfl, rfl, rfl, rfl, .inl rfl, ?_⟩
  refine ((confined_iff hkey rfl rfl rfl rfl).1).2 ?_
  rintro ⟨ht, -⟩
  cases ht

/-! ### A terminal action on a desktop session -/

/-- A desktop session that was let in by the connection manager and sends one message. -/
theorem remote_exec (msg : Message) {w' : World}
    (h : ∀ w, World.step .unused .linux (World.idle "8k2xq4") (.start .plain) = some w →
      ∀ w₁, World.step .unused .linux w (.conn 0 { freshPassword := "3m7tdw" } .authorize) = some w₁ →
        World.step .unused .linux w₁ (.conn 0 { freshPassword := "5w9c2f" } (.recv msg)) = some w') :
    ∃ w h c, Exec World.Init (World.step .unused .linux)
        ((w, .conn 0 { freshPassword := "5w9c2f" } (.recv msg)) :: h) w' ∧
      w.conns[0]? = some c ∧ c.login.authorized = true ∧ c.desk.authed = some .remote := by
  have hstart : Exec World.Init (World.step .unused .linux) [(World.idle "8k2xq4", .start .plain)] _ :=
    .snoc (.start (World.init_idle "8k2xq4")) rfl
  have hin := hstart.snoc (e := .conn 0 { freshPassword := "3m7tdw" } .authorize) rfl
  exact ⟨_, _, _, hin.snoc (h _ rfl _ rfl), rfl, rfl, rfl⟩

/-- A terminal action on a desktop session is handed to the terminal. -/
theorem terminal_action_not_confined : ∃ w w' h c c', Exec World.Init (World.step .unused .linux)
      ((w, .conn 0 { freshPassword := "5w9c2f" } (.recv (.terminalAction []))) :: h) w' ∧
    w.conns[0]? = some c ∧ w'.conns[0]? = some c' ∧ c.login.authorized = true ∧
    c.desk.authed = some .remote ∧ Effect.terminalAction [] ∈ c'.desk.out ∧
    ¬Confined .linux { freshPassword := "5w9c2f" } .remote (.terminalAction []) c c' := by
  obtain ⟨w, h, c, hx, hc, hauth, hty⟩ := remote_exec (.terminalAction [])
    (fun w hw w₁ hw₁ => by cases hw; cases hw₁; rfl)
  refine ⟨w, _, h, c, _, hx, hc, rfl, hauth, hty, List.mem_cons_self .., fun hconf => ?_⟩
  rcases hconf.within.effects (.terminalAction []) (List.mem_cons_self ..) with hout | hk
  · cases hout
  · cases hk

end FontisRemote.Connection
