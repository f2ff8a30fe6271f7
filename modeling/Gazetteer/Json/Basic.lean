import Gazetteer.Decimal.Shortest
import Gazetteer.Ordered.SortedMap

/-!
# JSON values

An object holds its members sorted by key, each key once; `Json.Canonical` states this for a value and all
values in it, and every function that builds an object keeps it.  Numbers are integers of 64 bits, signed or
not, or binary fractions given by their bits, so that two numbers are the same only if they print the same.
-/

namespace Gazetteer

set_option autoImplicit false

/-- A JSON number. -/
inductive Number
  | integer (n : Int)
  | real (bits : UInt64)
  deriving Repr, DecidableEq, Inhabited

namespace Number

/-- The integers a number can hold: those of 64 bits, signed or unsigned. -/
def inRange (n : Int) : Bool := -9223372036854775808 ≤ n && n < 18446744073709551616

/-- A number as a natural number of 64 bits. -/
def toNat? : Number → Option Nat
  | .integer n => if 0 ≤ n then some n.toNat else none
  | .real _ => none

/-- Numbers are written with the fewest digits that read back, plain from `0.00001` up to sixteen digits
before the point, and a positive exponent carries its sign. -/
def layout : Decimal.Layout := ⟨16, 5, "+"⟩

/-- The text of a number. -/
def text : Number → String
  | .integer n => toString n
  | .real bits => layout.renderBits bits

end Number

/-- A JSON value. -/
inductive Json
  | null
  | bool (b : Bool)
  | number (n : Number)
  | string (s : String)
  | array (items : List Json)
  | object (members : List (String × Json))
  deriving Repr, Inhabited

namespace Json

/-- A natural number. -/
def nat (n : Nat) : Json := .number (.integer n)

/-- An array of texts. -/
def strings (xs : List String) : Json := .array (xs.map .string)

/-- An object with these members; of equal keys the last stays. -/
def record (members : List (String × Json)) : Json :=
  .object (members.foldl (fun done m => Entries.put m.1 m.2 done) [])

/-- The member of an object with this key. -/
def get? (key : String) : Json → Option Json
  | .object members => Entries.get? key members
  | _ => none

/-- A text, if the value is one. -/
def string? : Json → Option String
  | .string s => some s
  | _ => none

/-- A natural number, if the value is one. -/
def nat? : Json → Option Nat
  | .number n => n.toNat?
  | _ => none

/-- The items of an array. -/
def items? : Json → Option (List Json)
  | .array items => some items
  | _ => none

/-- The members of an object. -/
def members? : Json → Option (List (String × Json))
  | .object members => some members
  | _ => none

/-- Whether the value is `null`. -/
def isNull : Json → Bool
  | .null => true
  | _ => false

mutual

/-- Every object in the value has its keys in strictly growing order. -/
def Canonical : Json → Prop
  | .array items => CanonicalItems items
  | .object members => Entries.Sorted members ∧ CanonicalMembers members
  | _ => True

/-- Every item is canonical. -/
def CanonicalItems : List Json → Prop
  | [] => True
  | item :: items => Canonical item ∧ CanonicalItems items

/-- The value of every member is canonical. -/
def CanonicalMembers : List (String × Json) → Prop
  | [] => True
  | (_, value) :: members => Canonical value ∧ CanonicalMembers members

end

end Json

end Gazetteer
