import Gazetteer.Json.Basic

/-!
# Reading JSON numbers

A number's digits are collected in a significand of 64 bits and a power of ten; the value is the
significand, rounded to a binary fraction and then multiplied or divided by that power, which is not always
the binary fraction nearest to the decimal.  Digits that no longer fit the significand only count towards
the power before the point and are dropped behind it.
-/

namespace Gazetteer.Json

set_option autoImplicit false

/-- What is wrong with a text that is no JSON. -/
inductive Problem
  | unfinishedList
  | unfinishedObject
  | unfinishedString
  | unfinishedValue
  | expectedColon
  | expectedListEnd
  | expectedObjectEnd
  | expectedWord
  | expectedValue
  | invalidEscape
  | invalidNumber
  | numberOutOfRange
  | controlCharacter
  | keyNotString
  | loneSurrogate
  | trailingComma
  | trailingCharacters
  | unfinishedEscape
  | tooDeep
  deriving Repr, DecidableEq

/-- How the problem reads. -/
def Problem.message : Problem → String
  | .unfinishedList => "EOF while parsing a list"
  | .unfinishedObject => "EOF while parsing an object"
  | .unfinishedString => "EOF while parsing a string"
  | .unfinishedValue => "EOF while parsing a value"
  | .expectedColon => "expected `:`"
  | .expectedListEnd => "expected `,` or `]`"
  | .expectedObjectEnd => "expected `,` or `\x7d`"
  | .expectedWord => "expected ident"
  | .expectedValue => "expected value"
  | .invalidEscape => "invalid escape"
  | .invalidNumber => "invalid number"
  | .numberOutOfRange => "number out of range"
  | .controlCharacter => "control character (\\u0000-\\u001F) found while parsing a string"
  | .keyNotString => "key must be a string"
  | .loneSurrogate => "lone leading surrogate in hex escape"
  | .trailingComma => "trailing comma"
  | .trailingCharacters => "trailing characters"
  | .unfinishedEscape => "unexpected end of hex escape"
  | .tooDeep => "recursion limit exceeded"

/-- A problem at `ahead` bytes behind the start of the text that is left. -/
structure Fault where
  problem : Problem
  rest : List Char
  ahead : Nat := 0
  deriving Repr, DecidableEq

/-- Numbers whose significand fits 64 bits. -/
def significandLimit : Nat := UInt64.size

/-- A power of ten as a binary fraction. -/
def powerOfTen (k : Nat) : Float := Float.ofScientific 1 false k

/-- `f · 10 ^ exponent`; `none` above the largest. Powers beyond the range are applied in pieces of 308. -/
def scaleFrom? : (fuel : Nat) → Float → Int → Option Float
  | 0, f, _ => some f
  | fuel + 1, f, exponent =>
      if exponent.natAbs ≤ 308 then
        if 0 ≤ exponent then
          let g := f * powerOfTen exponent.natAbs
          if g.isInf then none else some g
        else some (f / powerOfTen exponent.natAbs)
      else if f == 0.0 then some f
      else if 0 ≤ exponent then none
      else scaleFrom? fuel (f / powerOfTen 308) (exponent + 308)

/-- `significand · 10 ^ exponent` as a binary fraction; `none` above the largest. -/
def scale? (significand : Nat) (exponent : Int) : Option Float :=
  -- four pieces of 308 already turn every significand into zero
  scaleFrom? 8 (UInt64.ofNat significand).toFloat exponent

/-- A binary fraction with its sign. -/
def signed (positive : Bool) (f : Float) : Number :=
  .real (if positive then f else -f).toBits

/-- Finish a number whose text ends here. -/
def finishReal (positive : Bool) (significand : Nat) (exponent : Int) (rest : List Char) :
    Except Fault (Number × List Char) :=
  match scale? significand exponent with
  | some f => .ok (signed positive f, rest)
  | none => .error ⟨.numberOutOfRange, rest, 0⟩

/-- A decimal digit's value. -/
def digit? (c : Char) : Option Nat := if '0' ≤ c && c ≤ '9' then some (c.toNat - 48) else none

/-- Whether the text goes on with an exponent mark. -/
def atExponent : List Char → Bool
  | c :: _ => c = 'e' || c = 'E'
  | [] => false

/-- Digits of an exponent; `none` once they exceed 31 bits. -/
def exponentDigits (value : Nat) : List Char → Option Nat × List Char
  | [] => (some value, [])
  | c :: cs =>
      match digit? c with
      | none => (some value, c :: cs)
      | some d =>
          if value * 10 + d < 2147483648 then exponentDigits (value * 10 + d) cs
          else (none, cs)

/-- The exponent after its mark. -/
def readExponent (positive : Bool) (significand : Nat) (exponent : Int) (cs : List Char) :
    Except Fault (Number × List Char) :=
  let (up, cs) := match cs with
    | '+' :: cs => (true, cs)
    | '-' :: cs => (false, cs)
    | cs => (true, cs)
  match cs with
  | [] => .error ⟨.unfinishedValue, [], 0⟩
  | c :: cs =>
      match digit? c with
      | none => .error ⟨.invalidNumber, c :: cs, 1⟩
      | some d =>
          match exponentDigits d cs with
          | (some e, rest) =>
              finishReal positive significand (if up then exponent + e else exponent - e) rest
          | (none, rest) =>
              if significand != 0 && up then .error ⟨.numberOutOfRange, rest, 0⟩
              else .ok (signed positive 0.0, rest.dropWhile fun c => (digit? c).isSome)

/-- The digits behind the point: the significand, the exponent, and whether there was a digit. -/
def fractionDigits (significand : Nat) (exponent : Int) (any : Bool) :
    List Char → Nat × Int × Bool × List Char
  | [] => (significand, exponent, any, [])
  | c :: cs =>
      match digit? c with
      | none => (significand, exponent, any, c :: cs)
      | some d =>
          if significand * 10 + d < significandLimit then
            fractionDigits (significand * 10 + d) (exponent - 1) true cs
          else
            (significand, exponent, true, cs.dropWhile fun c => (digit? c).isSome)

/-- What follows the point. -/
def readFraction (positive : Bool) (significand : Nat) (exponent : Int) (cs : List Char) :
    Except Fault (Number × List Char) :=
  match fractionDigits significand exponent false cs with
  | (_, _, false, []) => .error ⟨.unfinishedValue, [], 0⟩
  | (_, _, false, rest) => .error ⟨.invalidNumber, rest, 1⟩
  | (significand, exponent, true, rest) =>
      if atExponent rest then readExponent positive significand exponent (rest.drop 1)
      else finishReal positive significand exponent rest

/-- What follows the digits of an integer whose last `exponent` digits did not fit. -/
def finishLong (positive : Bool) (significand : Nat) (exponent : Int) (rest : List Char) :
    Except Fault (Number × List Char) :=
  match rest with
  | '.' :: cs => readFraction positive significand exponent cs
  | rest =>
      if atExponent rest then readExponent positive significand exponent (rest.drop 1)
      else finishReal positive significand exponent rest

/-- What follows the digits of an integer that fits: it stays an integer unless a point or an exponent
follows, or its negative does not fit. -/
def finishInteger (positive : Bool) (significand : Nat) (rest : List Char) : Except Fault (Number × List Char) :=
  match rest with
  | '.' :: cs => readFraction positive significand 0 cs
  | rest =>
      if atExponent rest then readExponent positive significand 0 (rest.drop 1)
      else if positive then .ok (.integer significand, rest)
      else if significand = 0 || 9223372036854775808 < significand then
        .ok (.real (-(UInt64.ofNat significand).toFloat).toBits, rest)
      else .ok (.integer (-(significand : Int)), rest)

/-- The digits of an integer. -/
def integerDigits (positive : Bool) (significand : Nat) : List Char → Except Fault (Number × List Char)
  | [] => finishInteger positive significand []
  | c :: cs =>
      match digit? c with
      | none => finishInteger positive significand (c :: cs)
      | some d =>
          if significand * 10 + d < significandLimit then
            integerDigits positive (significand * 10 + d) cs
          else
            let more := (c :: cs).takeWhile fun c => (digit? c).isSome
            finishLong positive significand more.length ((c :: cs).drop more.length)

/-- A number without its sign. A leading zero stands alone. -/
def readNumber (positive : Bool) : List Char → Except Fault (Number × List Char)
  | [] => .error ⟨.unfinishedValue, [], 0⟩
  | '0' :: cs =>
      match cs with
      | c :: _ =>
          if (digit? c).isSome then .error ⟨.invalidNumber, cs, 1⟩ else finishInteger positive 0 cs
      | [] => finishInteger positive 0 []
  | c :: cs =>
      match digit? c with
      | some d => integerDigits positive d cs
      | none => .error ⟨.invalidNumber, c :: cs, 1⟩

end Gazetteer.Json
