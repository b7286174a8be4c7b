import Mathlib.Algebra.Order.Ring.Int
import Mathlib.Data.Nat.Basic
import Mathlib.Data.List.Basic
import Mathlib.Order.Lattice

/-!
# Windows and credit of a multiplexed port-forward channel

The constants, `charge`, `RecvWindow` and `SendCredit` of `src/port_forward_mux.rs`. Counters are
`u32` in the source: additions saturate there, and so do they here. A `SendCredit` is the number
behind its mutex; the `Notify` that wakes a parked `take` carries no data.
-/

namespace FontisRemote.PortForward

abbrev Bytes := List UInt8

def u32Max : Nat := 2 ^ 32 - 1

/-- `u32::saturating_add`. -/
def satAdd (a b : Nat) : Nat := min (a + b) u32Max

def initialWindow : Nat := 64 * 1024
def minFrameCharge : Nat := 64
def channelWindow : Nat := 256 * 1024
def maxFrame : Nat := 64 * 1024
def updateThreshold : Nat := channelWindow / 2
def maxChannels : Nat := 256
def dataQueueFrames : Nat := 128
def maxSendCredit : Nat := channelWindow

def effectiveWindow (advertised : Nat) : Nat := max advertised initialWindow

/-- What a `data` frame of this length costs its channel's window. -/
def charge (len : Nat) : Nat := max (if len ≤ u32Max then len else u32Max) minFrameCharge

theorem minFrameCharge_le_charge (len : Nat) : minFrameCharge ≤ charge len := le_max_right _ _

/-- A read never costs more than the credit taken for it: `take` hands out a minimum charge at
least. -/
theorem charge_le_of_le {len allow : Nat} (h : len ≤ allow) (hmin : minFrameCharge ≤ allow) :
    charge len ≤ allow := by
  unfold charge
  apply max_le _ hmin
  split
  · exact h
  · omega

/-! ## `RecvWindow` -/

/-- Receiver-side accounting: the credit the peer still has, and what was drained to the local
socket since the last `window_update`. -/
structure RecvWindow where
  remaining : Nat
  drainedSinceUpdate : Nat
  deriving DecidableEq, Repr

namespace RecvWindow

def new (granted : Nat) : RecvWindow := ⟨effectiveWindow granted, 0⟩

/-- `none` is the source's `false`: the peer overran the window. -/
def accept (w : RecvWindow) (len : Nat) : Option RecvWindow :=
  if charge len ≤ w.remaining then some { w with remaining := w.remaining - charge len } else none

def grant (w : RecvWindow) (n : Nat) : RecvWindow := { w with remaining := satAdd w.remaining n }

/-- The amount to advertise once enough was drained; the same amount is credited back. -/
def drained (w : RecvWindow) (n : Nat) : RecvWindow × Option Nat :=
  let d := satAdd w.drainedSinceUpdate (charge n)
  if d < updateThreshold then (⟨w.remaining, d⟩, none)
  else (⟨satAdd w.remaining d, 0⟩, some d)

@[simp] theorem grant_drainedSinceUpdate (w : RecvWindow) (n : Nat) :
    (w.grant n).drainedSinceUpdate = w.drainedSinceUpdate := rfl

theorem accept_eq_some {w w' : RecvWindow} {len : Nat} (h : w.accept len = some w') :
    charge len ≤ w.remaining ∧ w' = ⟨w.remaining - charge len, w.drainedSinceUpdate⟩ := by
  unfold accept at h
  split at h
  · next hle =>
    cases h
    exact ⟨hle, rfl⟩
  · cases h

theorem accept_isSome {w : RecvWindow} {len : Nat} :
    (w.accept len).isSome ↔ charge len ≤ w.remaining := by
  unfold accept
  split <;> simp_all

/-- Either the amount stays withheld below the threshold, or the whole of it is advertised. -/
theorem drained_cases (w : RecvWindow) (n : Nat) :
    (w.drained n = (⟨w.remaining, satAdd w.drainedSinceUpdate (charge n)⟩, none) ∧
      satAdd w.drainedSinceUpdate (charge n) < updateThreshold) ∨
    (w.drained n = (⟨satAdd w.remaining (satAdd w.drainedSinceUpdate (charge n)), 0⟩,
      some (satAdd w.drainedSinceUpdate (charge n)))) := by
  unfold drained
  by_cases h : satAdd w.drainedSinceUpdate (charge n) < updateThreshold
  · exact Or.inl ⟨by simp [h], h⟩
  · exact Or.inr (by simp [h])

end RecvWindow

/-! ## `SendCredit` -/

namespace SendCredit

def new (initial : Nat) : Nat := min initial maxSendCredit

/-- One turn of the `take` loop: `none` parks on the notify. The result is the amount taken and
the credit left. -/
def take (credit maximum : Nat) : Option (Nat × Nat) :=
  if minFrameCharge ≤ credit then some (min credit maximum, credit - min credit maximum) else none

def add (credit n : Nat) : Nat := min (satAdd credit n) maxSendCredit

/-- `opened` advertises the peer's real window; the channel started with `initialWindow`. -/
def raiseInitial (credit total : Nat) : Nat :=
  let extra := effectiveWindow total - initialWindow
  if 0 < extra then add credit extra else credit

theorem take_eq_some {credit maximum n left : Nat} (h : take credit maximum = some (n, left)) :
    minFrameCharge ≤ credit ∧ n = min credit maximum ∧ left = credit - n := by
  unfold take at h
  split at h
  · next hle =>
    cases h
    exact ⟨hle, rfl, rfl⟩
  · cases h

/-- The cap in `add` is idle as long as the sum stays within the advertised window. -/
theorem add_eq {credit n : Nat} (h : credit + n ≤ maxSendCredit) : add credit n = credit + n := by
  have h32 : maxSendCredit ≤ u32Max := by decide
  unfold add satAdd
  omega

theorem raiseInitial_channelWindow (credit : Nat) :
    raiseInitial credit channelWindow = add credit (channelWindow - initialWindow) := by
  unfold raiseInitial effectiveWindow
  have h : max channelWindow initialWindow = channelWindow := by decide
  simp only [h]
  rw [if_pos (by decide)]

end SendCredit

theorem satAdd_eq {a b : Nat} (h : a + b ≤ u32Max) : satAdd a b = a + b := by
  unfold satAdd
  omega

end FontisRemote.PortForward
