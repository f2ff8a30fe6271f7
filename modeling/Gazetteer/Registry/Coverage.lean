import Gazetteer.Registry.KeyIndex

/-!
# Coverage

The part of the known items that a manifest documents, as a count and as a percentage rounded half up.  The
percentage is computed in whole numbers of 64 bits, so it is exact as long as they do not overflow.
-/

namespace Gazetteer

set_option autoImplicit false

/-- How many of `total` items are documented. -/
structure Coverage where
  documented : Nat
  total : Nat
  percent : Nat
  deriving Repr, DecidableEq

namespace Coverage

/-- What the percentage divides: two hundred times the part, and the total to round half up. -/
def dividend (part total : UInt64) : UInt64 := part * 200 + total

/-- What the percentage divides by. -/
def divisor (total : UInt64) : UInt64 := 2 * total

/-- The percentage of a part, narrowed to a byte; of nothing it is zero. -/
def percentOf (part total : UInt64) : UInt8 :=
  if total = 0 then 0 else (dividend part total / divisor total).toUInt8

/-- Coverage of `total` items; no more than all of them are documented. -/
def of (documented total : Nat) : Coverage :=
  let documented := min documented total
  ⟨documented, total, (percentOf (.ofNat documented) (.ofNat total)).toNat⟩

/-- How many of the known keys the documented index holds. -/
def between (known documented : KeyIndex) : Coverage :=
  let hits := known.entries.map fun (file, keys) =>
    match documented.get? file with
    | some present => (keys.intersection present).size
    | none => 0
  of (sumOf hits) known.count

/-- The documented part as a fraction; of nothing, nothing is documented. -/
def ratio (c : Coverage) : Float :=
  if c.total = 0 then 0.0 else (UInt64.ofNat c.documented).toFloat / (UInt64.ofNat c.total).toFloat

/-- A percentage of some places, rounded half up. -/
def share (percent width : UInt64) : UInt64 := (percent * width + 50) / 100

/-- How many of `width` places are filled. -/
def filled (c : Coverage) (width : Nat) : Nat := min (share (.ofNat c.percent) (.ofNat width)).toNat width

/-- A bar of `width` places, filled in proportion. -/
def bar (c : Coverage) (width : Nat) : String :=
  let filled := c.filled width
  "[" ++ String.ofList (List.replicate filled '#' ++ List.replicate (width - filled) '-') ++ "]"

end Coverage

end Gazetteer
