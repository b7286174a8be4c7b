import FontisRemote.Connection.Message

/-!
# The scope gate

What an authorized connection may be sent: `authorized_message_scope_violation` and the lists it goes
by. A remote-desktop connection may be sent anything; every other type has a list of its own, a few
messages that legacy clients broadcast to all their sessions (let through for the handlers to
ignore), and the option fields that are its own.
-/

namespace FontisRemote.Connection

inductive AuthConnType where
  | remote
  | fileTransfer
  | portForward
  | viewCamera
  | terminal
  deriving DecidableEq, Repr

def isBoolOptionNotSet (f : BoolField) : Bool := f.enumValue = some .notSet

def optionHasNonTerminalLoginField (o : OptionMessage) : Bool :=
  o.imageQuality.enumValue ≠ some .notSet
    || o.customImageQuality ≠ 0
    || o.customFps ≠ 0
    || o.supportedDecoding.isSome
    || !isBoolOptionNotSet o.lockAfterSessionEnd
    || !isBoolOptionNotSet o.showRemoteCursor
    || !isBoolOptionNotSet o.privacyMode
    || !isBoolOptionNotSet o.blockInput
    || !isBoolOptionNotSet o.disableAudio
    || !isBoolOptionNotSet o.disableClipboard
    || !isBoolOptionNotSet o.enableFileTransfer
    || !isBoolOptionNotSet o.disableKeyboard
    || !isBoolOptionNotSet o.followRemoteCursor
    || !isBoolOptionNotSet o.followRemoteWindow
    || !isBoolOptionNotSet o.disableCamera
    || !isBoolOptionNotSet o.showMyCursor

def optionHasAnyField (o : OptionMessage) : Bool :=
  optionHasNonTerminalLoginField o || !isBoolOptionNotSet o.terminalPersistent

def optionHasNonViewCameraLoginField (o : OptionMessage) : Bool :=
  !(isBoolOptionNotSet o.lockAfterSessionEnd
    && isBoolOptionNotSet o.showRemoteCursor
    && isBoolOptionNotSet o.privacyMode
    && isBoolOptionNotSet o.blockInput
    && isBoolOptionNotSet o.disableClipboard
    && isBoolOptionNotSet o.enableFileTransfer
    && isBoolOptionNotSet o.disableKeyboard
    && isBoolOptionNotSet o.followRemoteCursor
    && isBoolOptionNotSet o.followRemoteWindow
    && isBoolOptionNotSet o.disableCamera
    && isBoolOptionNotSet o.terminalPersistent
    && isBoolOptionNotSet o.showMyCursor)

def isSupportedDecodingOnlyOption (o : OptionMessage) : Bool :=
  o.supportedDecoding.isSome
    && o.imageQuality.enumValue = some .notSet
    && o.customImageQuality = 0
    && o.customFps = 0
    && isBoolOptionNotSet o.lockAfterSessionEnd
    && isBoolOptionNotSet o.showRemoteCursor
    && isBoolOptionNotSet o.privacyMode
    && isBoolOptionNotSet o.blockInput
    && isBoolOptionNotSet o.disableAudio
    && isBoolOptionNotSet o.disableClipboard
    && isBoolOptionNotSet o.enableFileTransfer
    && isBoolOptionNotSet o.disableKeyboard
    && isBoolOptionNotSet o.followRemoteCursor
    && isBoolOptionNotSet o.followRemoteWindow
    && isBoolOptionNotSet o.disableCamera
    && isBoolOptionNotSet o.terminalPersistent
    && isBoolOptionNotSet o.showMyCursor

/-- `then_some`. -/
def thenSome {α : Type} (b : Bool) (a : α) : Option α := if b then some a else none

theorem thenSome_eq_some {α : Type} {b : Bool} {a c : α} :
    thenSome b a = some c ↔ b = true ∧ a = c := by
  unfold thenSome
  cases b <;> simp

/-- The option a terminal may apply, and the violation if the message asks for more. -/
def scopedTerminalLoginOption (o : OptionMessage) : Option OptionMessage × Option String :=
  let (own, violation) : OptionMessage × Bool :=
    match o.terminalPersistent.enumValue with
    | some value => ({ terminalPersistent := .known value }, false)
    | none => ({}, true)
  let violation := violation || optionHasNonTerminalLoginField o
  (thenSome (optionHasAnyField own) own, thenSome violation "login.option")

/-- The option a camera session may apply, and the violation if the message asks for more. -/
def scopedViewCameraOption (o : OptionMessage) : Option OptionMessage × Option String :=
  let own : OptionMessage := {
    imageQuality := if o.imageQuality.enumValue.isSome then o.imageQuality else .known .notSet
    customImageQuality := if 0 ≤ o.customImageQuality then o.customImageQuality else 0
    customFps := if 0 ≤ o.customFps then o.customFps else 0
    supportedDecoding := o.supportedDecoding
    disableAudio := match o.disableAudio.enumValue with
      | some value => .known value
      | none => .known .notSet }
  (thenSome (optionHasAnyField own) own,
    thenSome (optionHasNonViewCameraLoginField o) "login.option")

def scopedLoginOption (connType : AuthConnType) (o : OptionMessage) :
    Option OptionMessage × Option String :=
  match connType with
  | .remote => (some o, none)
  | .viewCamera => scopedViewCameraOption o
  | .terminal => scopedTerminalLoginOption o
  | .fileTransfer | .portForward => (none, thenSome (optionHasAnyField o) "login.option")

/-- `scoped_update_option_message`, which is asked only of a connection that is not remote. -/
def scopedUpdateOptionMessage (connType : Option AuthConnType) (o : OptionMessage) :
    Option OptionMessage :=
  match connType with
  | some .viewCamera => (scopedViewCameraOption o).1
  | some .terminal => (scopedTerminalLoginOption o).1
  | some .remote | some .fileTransfer | some .portForward | none => none

def isConnectionHousekeepingMessage : Message → Bool
  | .loginRequest _ => true
  | .testDelay _ _ => true
  | .misc (some (.closeReason _)) => true
  | _ => false

def isRenderBroadcastNoopCompatMessage : Message → Bool
  | .misc (some (.refreshVideo _)) => true
  | .misc (some (.refreshVideoDisplay _)) => true
  | .misc (some (.option o)) => isSupportedDecodingOnlyOption o
  | _ => false

def isTextClipboardNoopCompatMessage : Message → Bool
  | .clipboard _ => true
  | .multiClipboards _ => true
  | _ => false

/-- `is_file_transfer_scoped_message`, with `is_file_transfer_scoped_misc`. -/
def isFileTransferScopedMessage (windows : Bool) : Message → Bool
  | .fileAction _ => true
  | .fileResponse _ => true
  | .misc (some (.selectedSid _)) => windows
  | _ => false

def isPortForwardScopedMessage : Message → Bool
  | .portForwardChannel _ => true
  | _ => false

def isTerminalScopedOption (o : OptionMessage) : Bool := (scopedTerminalLoginOption o).2.isNone

/-- `is_terminal_scoped_message`, with `is_terminal_scoped_misc`. -/
def isTerminalScopedMessage : Message → Bool
  | .terminalAction _ => true
  | .misc (some (.chatMessage _)) => true
  | .misc (some (.option o)) => isTerminalScopedOption o
  | _ => false

def isViewCameraScopedOption (o : OptionMessage) : Bool := (scopedViewCameraOption o).2.isNone

def isViewCameraScopedMisc (windows : Bool) : Misc → Bool
  | .switchDisplay _ _ _ => true
  | .captureDisplays _ _ _ => true
  | .refreshVideo _ => true
  | .refreshVideoDisplay _ => true
  | .videoReceived => true
  | .chatMessage _ => true
  | .audioFormat _ => true
  | .clientRecordStatus _ => true
  -- Not expected of a camera session, but clients may send them.
  | .messageQuery _ => true
  | .togglePrivacyMode _ _ => true
  | .toggleVirtualDisplay _ _ => true
  | .changeResolution _ => true
  | .changeDisplayResolution _ _ => true
  | .option o => isViewCameraScopedOption o
  | .selectedSid _ => windows
  | _ => false

def isViewCameraScopedMessage (windows : Bool) : Message → Bool
  | .screenshotRequest _ _ => true
  | .misc (some m) => isViewCameraScopedMisc windows m
  -- Legacy clients may send auto-login input while a camera session connects.
  | .mouseEvent _ => true
  | .pointerDeviceEvent _ => true
  | .keyEvent _ => true
  | .audioFrame _ => true
  | .voiceCallRequest _ _ => true
  | .voiceCallResponse _ => true
  | _ => false

def miscMessageFamily : Misc → String
  | .chatMessage _ => "misc.chat_message"
  | .switchDisplay _ _ _ => "misc.switch_display"
  | .option _ => "misc.option"
  | .audioFormat _ => "misc.audio_format"
  | .captureDisplays _ _ _ => "misc.capture_displays"
  | .clientRecordStatus _ => "misc.client_record_status"
  | .togglePrivacyMode _ _ => "misc.toggle_privacy_mode"
  | .toggleVirtualDisplay _ _ => "misc.toggle_virtual_display"
  | .selectedSid _ => "misc.selected_sid"
  | .changeResolution _ => "misc.change_resolution"
  | .changeDisplayResolution _ _ => "misc.change_display_resolution"
  | .messageQuery _ => "misc.message_query"
  | .followCurrentDisplay _ => "misc.follow_current_display"
  | .switchSidesRequest _ => "misc.switch_sides_request"
  | _ => "misc.other"

def messageFamily : Message → String
  | .mouseEvent _ => "mouse_event"
  | .audioFrame _ => "audio_frame"
  | .pointerDeviceEvent _ => "pointer_device_event"
  | .keyEvent _ => "key_event"
  | .clipboard _ => "clipboard"
  | .fileAction _ => "file_action"
  | .fileResponse _ => "file_response"
  | .voiceCallRequest _ _ => "voice_call_request"
  | .voiceCallResponse _ => "voice_call_response"
  | .multiClipboards _ => "multi_clipboards"
  | .screenshotRequest _ _ => "screenshot_request"
  | .screenshotResponse => "screenshot_response"
  | .terminalAction _ => "terminal_action"
  | .terminalResponse => "terminal_response"
  | .portForwardChannel _ => "port_forward_channel"
  | .misc (some m) => miscMessageFamily m
  | .misc none => "misc.empty"
  | .empty => "empty"
  | _ => "message.other"

/-- The messages a type lets through for its handlers to ignore. -/
def isNoopCompat (connType : AuthConnType) (msg : Message) : Bool :=
  match connType with
  | .fileTransfer | .terminal =>
    isRenderBroadcastNoopCompatMessage msg || isTextClipboardNoopCompatMessage msg
  | .portForward => isRenderBroadcastNoopCompatMessage msg
  | .viewCamera => isTextClipboardNoopCompatMessage msg
  | .remote => false

def isAllowed (windows : Bool) (connType : AuthConnType) (msg : Message) : Bool :=
  match connType with
  | .remote => true
  | .fileTransfer => isFileTransferScopedMessage windows msg
  | .portForward => isPortForwardScopedMessage msg
  | .viewCamera => isViewCameraScopedMessage windows msg
  | .terminal => isTerminalScopedMessage msg

def authorizedMessageScopeViolation (windows : Bool) (connType : AuthConnType) (msg : Message) :
    Option String :=
  if isConnectionHousekeepingMessage msg then none
  else if isNoopCompat connType msg then none
  else if isAllowed windows connType msg then none
  else some (messageFamily msg)

/-- The gate for a connection whose type may be unknown. -/
def authorizedScopeViolation (windows : Bool) (connType : Option AuthConnType) (msg : Message) :
    Option String :=
  match connType with
  | none => if isConnectionHousekeepingMessage msg then none else some "session.auth_type"
  | some t => authorizedMessageScopeViolation windows t msg

/-! ## The options of a limited session -/

/-- Nothing but the terminal's own field is set. -/
def OnlyTerminalFields (o : OptionMessage) : Prop := optionHasNonTerminalLoginField o = false

/-- Nothing but the camera's own fields is set. -/
def OnlyViewCameraFields (o : OptionMessage) : Prop := optionHasNonViewCameraLoginField o = false

theorem isBoolOptionNotSet_iff {f : BoolField} : isBoolOptionNotSet f = true ↔ f = .known .notSet := by
  cases f with
  | known v => cases v <;> simp [isBoolOptionNotSet, EnumOrUnknown.enumValue]
  | unknown v => simp [isBoolOptionNotSet, EnumOrUnknown.enumValue]

/-- The fields of an option a terminal applies: persistence alone, and set. -/
theorem scopedTerminalLoginOption_fields {o s : OptionMessage}
    (h : (scopedTerminalLoginOption o).1 = some s) :
    ∃ v, o.terminalPersistent = .known v ∧ v ≠ .notSet ∧ s = { terminalPersistent := .known v } := by
  unfold scopedTerminalLoginOption at h
  cases hp : o.terminalPersistent with
  | unknown v =>
    simp [hp, EnumOrUnknown.enumValue, thenSome, optionHasAnyField, optionHasNonTerminalLoginField,
      isBoolOptionNotSet] at h
  | known v =>
    simp only [hp, EnumOrUnknown.enumValue] at h
    obtain ⟨hany, rfl⟩ := thenSome_eq_some.1 h
    refine ⟨v, rfl, ?_, rfl⟩
    rintro rfl
    simp [optionHasAnyField, optionHasNonTerminalLoginField, isBoolOptionNotSet,
      EnumOrUnknown.enumValue] at hany

/-- The fields of an option a camera session applies. -/
theorem scopedViewCameraOption_fields {o s : OptionMessage}
    (h : (scopedViewCameraOption o).1 = some s) :
    s = {
      imageQuality := s.imageQuality
      customImageQuality := s.customImageQuality
      customFps := s.customFps
      supportedDecoding := s.supportedDecoding
      disableAudio := s.disableAudio } := by
  unfold scopedViewCameraOption at h
  obtain ⟨-, rfl⟩ := thenSome_eq_some.1 h
  rfl

/-- An option that reaches a limited session has only the fields of its type set. -/
theorem scopedUpdateOptionMessage_scoped {t : AuthConnType} {o s : OptionMessage}
    (h : scopedUpdateOptionMessage (some t) o = some s) :
    (t = .viewCamera ∧ OnlyViewCameraFields s) ∨ (t = .terminal ∧ OnlyTerminalFields s) := by
  cases t with
  | remote => cases h
  | fileTransfer => cases h
  | portForward => cases h
  | viewCamera =>
    refine Or.inl ⟨rfl, ?_⟩
    rw [scopedViewCameraOption_fields h]
    simp [OnlyViewCameraFields, optionHasNonViewCameraLoginField, isBoolOptionNotSet,
      EnumOrUnknown.enumValue]
  | terminal =>
    refine Or.inr ⟨rfl, ?_⟩
    obtain ⟨v, -, -, rfl⟩ := scopedTerminalLoginOption_fields h
    simp [OnlyTerminalFields, optionHasNonTerminalLoginField, isBoolOptionNotSet,
      EnumOrUnknown.enumValue]

/-- An option with nothing but the decoders set is nothing to a terminal. -/
theorem scopedTerminalLoginOption_decodingOnly {o : OptionMessage}
    (h : isSupportedDecodingOnlyOption o = true) : (scopedTerminalLoginOption o).1 = none := by
  have hp : o.terminalPersistent = .known .notSet := by
    simp only [isSupportedDecodingOnlyOption, Bool.and_eq_true, isBoolOptionNotSet_iff] at h
    exact h.1.2
  simp [scopedTerminalLoginOption, hp, EnumOrUnknown.enumValue, thenSome, optionHasAnyField,
    optionHasNonTerminalLoginField, isBoolOptionNotSet]

end FontisRemote.Connection
