/-!
# Integers as text

An integer is written in decimal digits with an optional sign; one that does not fit 64 bits is none.
-/

namespace Gazetteer.Text

set_option autoImplicit false

/-- The number that digits stand for. -/
def ofDigits (digits : List Char) : Nat := digits.foldl (fun n c => n * 10 + (c.toNat - 48)) 0

/-- An integer of 64 bits with its sign. -/
def integer? (cs : List Char) : Option Int :=
  let (negative, digits) := match cs with
    | '-' :: cs => (true, cs)
    | '+' :: cs => (false, cs)
    | cs => (false, cs)
  if digits.isEmpty || !digits.all Char.isDigit then none
  else
    let n : Int := if negative then -ofDigits digits else ofDigits digits
    if -9223372036854775808 ≤ n && n < 9223372036854775808 then some n else none

end Gazetteer.Text
