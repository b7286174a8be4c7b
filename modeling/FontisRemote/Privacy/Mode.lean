import FontisRemote.Lib.Run
import FontisRemote.Lib.Slots

/-!
# Privacy mode

`privacy_mode.rs` keeps one privacy mode for the whole machine, with the connection that turned it on. This is
the one of macOS, `macos.rs`, over `MacSetPrivacyMode` of `macos.mm`: it blanks the displays and blocks the input
of who sits there. Whether an operation of the system goes well is a parameter of it. A mode that was left counts as
left also where a display could not be restored, and a display that is added and cannot be blanked ends the mode
without a word to the rest.

The implementation and its key are one here: macOS supports one, and every key falls back to it.
-/

namespace FontisRemote.Privacy

def INVALID_PRIVACY_MODE_CONN_ID : Int32 := 0

inductive PrivacyError
  /-- `"Privacy occupied by another one."` -/
  | OCCUPIED
  /-- `"Failed to turn off privacy mode that belongs to someone else."` -/
  | TURN_OFF_OTHER_ID
  /-- `"Failed to turn on privacy mode"` -/
  | turnOnFailed
  /-- `"Failed to turn off privacy mode"` -/
  | turnOffFailed
deriving DecidableEq, Repr

/-- `PrivacyModeImpl` and `g_privacyModeActive`. -/
structure Mode where
  connId : Int32 := INVALID_PRIVACY_MODE_CONN_ID
  active : Bool := false
deriving DecidableEq, Repr

namespace Mode

variable (m : Mode)

/-- `MacSetPrivacyMode(true)`: what it had done is undone where it fails. -/
def macSetOn (ok : Bool) : Bool × Mode := if m.active then (true, m) else (ok, { m with active := ok })

/-- `MacSetPrivacyMode(false)` -/
def macSetOff (ok : Bool) : Bool × Mode := if m.active then (ok, { m with active := false }) else (true, m)

def isInPrivacyMode : Bool := m.connId != INVALID_PRIVACY_MODE_CONN_ID

def checkOnConnId (connId : Int32) : Except PrivacyError Bool :=
  if m.connId = connId then .ok true
  else if m.connId ≠ INVALID_PRIVACY_MODE_CONN_ID then .error .OCCUPIED
  else .ok false

def checkOffConnId (connId : Int32) : Except PrivacyError Unit :=
  if m.connId ≠ INVALID_PRIVACY_MODE_CONN_ID ∧ connId ≠ INVALID_PRIVACY_MODE_CONN_ID ∧ m.connId ≠ connId then
    .error .TURN_OFF_OTHER_ID
  else .ok ()

/-- `turn_on_privacy_sync`, with the `turn_on_privacy` of the implementation. -/
def turnOnPrivacy (connId : Int32) (ok : Bool) : Except PrivacyError Bool × Mode :=
  match m.checkOnConnId connId with
  | .ok true => (.ok true, m)
  | .error e => (.error e, m)
  | .ok false =>
    match m.macSetOn ok with
    | (true, m) => (.ok true, { m with connId := connId })
    | (false, m) => (.error .turnOnFailed, m)

def turnOffPrivacy (connId : Int32) (ok : Bool) : Except PrivacyError Unit × Mode :=
  match m.checkOffConnId connId with
  | .error e => (.error e, m)
  | .ok () =>
    match m.macSetOff ok with
    | (true, m) => (.ok (), { m with connId := INVALID_PRIVACY_MODE_CONN_ID })
    | (false, m) => (.error .turnOffFailed, m)

/-- The deferred shutdown after a display that could not be blanked. -/
def shutdown : Mode := { m with active := false }

/-- What turning on can do, by who holds the mode. -/
theorem turnOnPrivacy_cases (connId : Int32) (ok : Bool) :
    m.connId = connId ∧ m.turnOnPrivacy connId ok = (.ok true, m) ∨
      m.connId ≠ connId ∧ m.connId ≠ INVALID_PRIVACY_MODE_CONN_ID ∧ m.turnOnPrivacy connId ok = (.error .OCCUPIED, m) ∨
      m.connId ≠ connId ∧ m.connId = INVALID_PRIVACY_MODE_CONN_ID ∧
        (m.turnOnPrivacy connId ok = (.ok true, ⟨connId, true⟩) ∨
          m.active = false ∧ m.turnOnPrivacy connId ok = (.error .turnOnFailed, ⟨m.connId, false⟩)) := by
  unfold turnOnPrivacy checkOnConnId
  by_cases hsame : m.connId = connId
  · exact .inl ⟨hsame, by rw [if_pos hsame]⟩
  · refine .inr ?_
    by_cases hheld : m.connId = INVALID_PRIVACY_MODE_CONN_ID
    · refine .inr ⟨hsame, hheld, ?_⟩
      rw [if_neg hsame, if_neg (not_not.2 hheld)]
      dsimp only
      unfold macSetOn
      cases hact : m.active with
      | true =>
        left
        rw [if_pos rfl]
        dsimp only
        rw [hact]
      | false =>
        rw [if_neg Bool.false_ne_true]
        cases ok with
        | true => exact .inl rfl
        | false => exact .inr ⟨rfl, rfl⟩
    · refine .inl ⟨hsame, hheld, ?_⟩
      rw [if_neg hsame, if_pos hheld]

/-- What turning off can do. -/
theorem turnOffPrivacy_cases (connId : Int32) (ok : Bool) :
    m.turnOffPrivacy connId ok = (.error .TURN_OFF_OTHER_ID, m) ∧ m.connId ≠ INVALID_PRIVACY_MODE_CONN_ID ∧
        connId ≠ INVALID_PRIVACY_MODE_CONN_ID ∧ m.connId ≠ connId ∨
      (m.connId = INVALID_PRIVACY_MODE_CONN_ID ∨ connId = INVALID_PRIVACY_MODE_CONN_ID ∨ m.connId = connId) ∧
        (m.turnOffPrivacy connId ok = (.ok (), {}) ∨
          m.active = true ∧ ok = false ∧ m.turnOffPrivacy connId ok = (.error .turnOffFailed, ⟨m.connId, false⟩)) := by
  unfold turnOffPrivacy checkOffConnId
  by_cases hother : m.connId ≠ INVALID_PRIVACY_MODE_CONN_ID ∧ connId ≠ INVALID_PRIVACY_MODE_CONN_ID ∧ m.connId ≠ connId
  · exact .inl ⟨by rw [if_pos hother], hother⟩
  · refine .inr ⟨by tauto, ?_⟩
    rw [if_neg hother]
    dsimp only
    unfold macSetOff
    cases hact : m.active with
    | true =>
      rw [if_pos rfl]
      cases ok with
      | true => exact .inl rfl
      | false => exact .inr ⟨rfl, rfl, rfl⟩
    | false =>
      left
      rw [if_neg Bool.false_ne_true]
      dsimp only
      rw [hact]

end Mode

end FontisRemote.Privacy
