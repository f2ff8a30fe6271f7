/-!
# The shortest decimal that reads back as a given binary fraction

A binary64 number stands for `mantissa · 2 ^ exponent`, and every real strictly between the midpoints to
its two neighbours rounds to it (the midpoints too when the mantissa is even).  `shortest` looks on the
decimal grids of 1, 2, … 17 significant digits, coarsest first, for a point of that interval; only the
grid points next to the number can be nearest to it, so two candidates are enough.
-/

namespace Gazetteer.Decimal

set_option autoImplicit false

/-- The number `digits · 10 ^ exponent`. -/
structure Scientific where
  digits : Nat
  exponent : Int
  deriving Repr, DecidableEq

/-- The number `mantissa · 2 ^ exponent`, and whether its lower neighbour is half as far away as its
upper one (as it is at a power of two). -/
structure Binary where
  mantissa : Nat
  exponent : Int
  closeBelow : Bool
  deriving Repr, DecidableEq

/-- The absolute value of the finite number with these bits. -/
def Binary.ofBits (bits : UInt64) : Binary :=
  let fraction := (bits &&& 0xFFFFFFFFFFFFF).toNat
  let biased := ((bits >>> 52) &&& 0x7FF).toNat
  if biased = 0 then ⟨fraction, -1074, false⟩
  else ⟨fraction + 4503599627370496, (biased : Int) - 1075, fraction = 0 && biased > 1⟩

/-- Number of decimal digits; zero has none. -/
def digitCount (n : Nat) : Nat := if n = 0 then 0 else (Nat.toDigits 10 n).length

/-- The `k` with `10 ^ (k - 1) ≤ num / den < 10 ^ k`. -/
def magnitude (num den : Nat) : Int :=
  if den ≤ num then digitCount (num / den)
  else
    match (List.range 400).find? fun j => den ≤ num * Nat.pow 10 (j + 1) with
    | some j => -(j : Int)
    | none => 0

/-- Cut trailing zeros of the digits. -/
def Scientific.trimmed (s : Scientific) : Nat → Scientific
  | 0 => s
  | fuel + 1 =>
      if s.digits % 10 = 0 && s.digits != 0 then
        Scientific.trimmed ⟨s.digits / 10, s.exponent + 1⟩ fuel
      else s

/-- The grid point of `10 ^ j` nearest to `value / den` among those between `low / den` and
`high / den`; of two equally near ones the even. -/
def onGrid? (value low high den : Nat) (closed : Bool) (j : Int) : Option Scientific :=
  let up := Nat.pow 10 (-j).toNat
  let step := den * Nat.pow 10 j.toNat
  let below := value * up / step
  let fits (c : Nat) : Bool :=
    let x := c * step
    if closed then low * up ≤ x && x ≤ high * up else low * up < x && x < high * up
  let gapBelow := value * up - below * step
  let gapAbove := (below + 1) * step - value * up
  match fits below && below != 0, fits (below + 1) with
  | true, false => some ⟨below, j⟩
  | false, true => some ⟨below + 1, j⟩
  | false, false => none
  | true, true =>
      if gapBelow < gapAbove || (gapBelow = gapAbove && below % 2 = 0) then some ⟨below, j⟩
      else some ⟨below + 1, j⟩

/-- The shortest decimal in the rounding interval of a positive number, nearest to it. -/
def shortest (b : Binary) : Scientific :=
  let scale := b.exponent - 2
  let up := Nat.pow 2 scale.toNat
  let den := Nat.pow 2 (-scale).toNat
  let value := 4 * b.mantissa * up
  let low := (4 * b.mantissa - (if b.closeBelow then 1 else 2)) * up
  let high := (4 * b.mantissa + 2) * up
  let top := magnitude value den
  let found := (List.range 17).findSome? fun n =>
    onGrid? value low high den (b.mantissa % 2 = 0) (top - (n + 1 : Nat))
  (found.getD ⟨0, 0⟩).trimmed 20

/-- How a decimal is laid out: plain digits with a point while the point falls within the given
distances of the first digit, otherwise an exponent. -/
structure Layout where
  /-- The point may stand this many places behind the first digit. -/
  pointBehind : Int
  /-- The point may stand this many places before it. -/
  pointBefore : Int
  /-- Written in front of an exponent that is not negative. -/
  plusMark : String

/-- Write a decimal. -/
def Layout.render (l : Layout) (s : Scientific) : String :=
  let digits := Nat.repr s.digits
  let count : Int := digits.length
  let point := count + s.exponent
  let zeros (n : Int) : String := String.ofList (List.replicate n.toNat '0')
  if 0 ≤ s.exponent && point ≤ l.pointBehind then digits ++ zeros s.exponent ++ ".0"
  else if 0 < point && point ≤ l.pointBehind then
    String.ofList (digits.toList.take point.toNat) ++ "." ++
      String.ofList (digits.toList.drop point.toNat)
  else if -l.pointBefore < point && point ≤ 0 then "0." ++ zeros (-point) ++ digits
  else
    let mark := if point - 1 < 0 then "e" else "e" ++ l.plusMark
    let lead := String.ofList (digits.toList.take 1)
    let tail := String.ofList (digits.toList.drop 1)
    let mantissa := if tail.isEmpty then lead else lead ++ "." ++ tail
    mantissa ++ mark ++ toString (point - 1)

/-- Write the number with these bits. -/
def Layout.renderBits (l : Layout) (bits : UInt64) : String :=
  let sign := if bits >>> 63 = 1 then "-" else ""
  let size := bits &&& 0x7FFFFFFFFFFFFFFF
  if size = 0 then sign ++ "0.0" else sign ++ l.render (shortest (Binary.ofBits size))

end Gazetteer.Decimal
