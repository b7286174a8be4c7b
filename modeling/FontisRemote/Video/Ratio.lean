import Mathlib.Order.Basic

/-!
# The numbers of a bitrate ratio

A ratio is an `f32` in the source, which multiplies, divides and compares. The controller is written once,
over any numbers that have these: `Float32`, or exact ones, where a statement is about the ratio itself.
-/

namespace FontisRemote.Video

class RatioNumber (R : Type) extends OfScientific R, Mul R, Div R, LT R, LE R where
  decLt : DecidableLT R
  decLe : DecidableLE R
  /-- A `u32` as such a number. -/
  ofU32 : Nat → R

attribute [reducible, instance] RatioNumber.decLt RatioNumber.decLe

instance : RatioNumber Float32 where
  decLt := inferInstance
  decLe := inferInstance
  ofU32 n := (UInt32.ofNat n).toFloat32

export RatioNumber (ofU32)

variable {R : Type} [RatioNumber R]

def BR_BEST : R := 1.5

def BR_BALANCED : R := 0.67

def BR_SPEED : R := 0.5

def BR_MAX : R := 40.0

def BR_MIN : R := 0.2

def BR_MIN_HIGH_RESOLUTION : R := 0.1

def MAX_BR_MULTIPLE : R := 1.0

/-- The smaller, the larger and the clamped of numbers that are numbers. -/
def fmin (a b : R) : R :=
  if b < a then b else a

def fmax (a b : R) : R :=
  if a < b then b else a

def fclamp (lo hi v : R) : R :=
  if v < lo then lo else if hi < v then hi else v

/-! ## The quality -/

/-- A ratio of the viewer's own, which `convert_quality` has clamped. -/
structure CustomRatio (R : Type) [RatioNumber R] where
  val : R
  clamped : ∃ v, fclamp BR_MIN BR_MAX v = val

inductive Quality (R : Type) [RatioNumber R]
  | best
  | balanced
  | low
  | custom (ratio : CustomRatio R)

def Quality.ratio : Quality R → R
  | .best => BR_BEST
  | .balanced => BR_BALANCED
  | .low => BR_SPEED
  | .custom ratio => ratio.val

end FontisRemote.Video
