import Gazetteer.Text.Blank
import Gazetteer.Time.Instant

/-!
# Timestamps

A timestamp is a date and a time of day, each in digits, and a distance from UTC.  `Instant.text` writes
an instant in UTC with as many groups of three fraction digits as it needs; `Instant.parse` reads that form
and the looser ones people write: blanks before a number and a separator, a blank between date and time, `UTC`
for `Z`, a distance without its colon, more than nine fraction digits.
-/

namespace Gazetteer.Time

set_option autoImplicit false

/-- What is wrong with a text that is no timestamp. -/
inductive TimestampError
  | outOfRange
  | impossible
  | invalid
  | tooShort
  | tooLong
  deriving Repr, DecidableEq

/-- How the error reads. -/
def TimestampError.message : TimestampError → String
  | .outOfRange => "input is out of range"
  | .impossible => "no possible date and time matching input"
  | .invalid => "input contains invalid characters"
  | .tooShort => "premature end of input"
  | .tooLong => "trailing input"

/-- A decimal digit's value. -/
def digit? (c : Char) : Option Nat := if '0' ≤ c && c ≤ '9' then some (c.toNat - 48) else none

/-- The text after leading blanks. -/
def skipBlank (cs : List Char) : List Char := Text.trimStart Text.isBlank cs

/-- A number of at least one and at most `width` digits that fits 63 bits. -/
def readDigits (width : Nat) (cs : List Char) : Except TimestampError (Nat × List Char) :=
  let digits := (cs.take width).takeWhile fun c => (digit? c).isSome
  match digits, cs with
  | [], [] => .error .tooShort
  | [], _ => .error .invalid
  | _, _ =>
      let n := digits.foldl (fun n c => n * 10 + (digit? c).getD 0) 0
      if n < 9223372036854775808 then .ok (n, cs.drop digits.length) else .error .outOfRange

/-- A number of at most two digits within bounds, after blanks. -/
def readField (low high : Nat) (cs : List Char) : Except TimestampError (Nat × List Char) := do
  let (n, cs) ← readDigits 2 (skipBlank cs)
  if low ≤ n && n ≤ high then .ok (n, cs) else .error .outOfRange

/-- A year: four digits at most, or any number behind a sign. -/
def readYear (cs : List Char) : Except TimestampError (Int × List Char) := do
  let cs := skipBlank cs
  let (year, cs) ← match cs with
    | '-' :: cs => do
        let (n, rest) ← readDigits cs.length cs
        pure (-(n : Int), rest)
    | '+' :: cs => do
        let (n, rest) ← readDigits cs.length cs
        pure ((n : Int), rest)
    | cs => do
        let (n, rest) ← readDigits 4 cs
        pure ((n : Int), rest)
  if -2147483648 ≤ year && year < 2147483648 then .ok (year, cs) else .error .outOfRange

/-- A separator, after blanks. -/
def readMark (mark : Char) (cs : List Char) : Except TimestampError (List Char) :=
  match skipBlank cs with
  | [] => .error .tooShort
  | c :: cs => if c = mark then .ok cs else .error .invalid

/-- The fraction of a second in nanoseconds; digits after the ninth are cut. -/
def readFraction : List Char → Except TimestampError (Nat × List Char)
  | '.' :: cs => do
      let (n, rest) ← readDigits 9 cs
      let used := cs.length - rest.length
      .ok (n * Nat.pow 10 (9 - used), rest.dropWhile fun c => (digit? c).isSome)
  | cs => .ok (0, cs)

/-- Two digits of the distance from UTC. -/
def readPair : List Char → Except TimestampError (Nat × Nat × List Char)
  | a :: b :: cs =>
      match digit? a, digit? b with
      | some a, some b => .ok (a, b, cs)
      | _, _ => .error .invalid
  | cs => if 2 ≤ Text.byteLength cs then .error .invalid else .error .tooShort

/-- The distance from UTC in seconds. -/
def readOffset (cs : List Char) : Except TimestampError (Int × List Char) :=
  match cs with
  | [] => .error .tooShort
  | c :: rest =>
      if c = 'Z' || c = 'z' then .ok (0, rest)
      else if (cs.take 3).map Char.toLower = ['u', 't', 'c'] then .ok (0, cs.drop 3)
      else
        let sign : Option Int :=
          if c = '+' then some 1
          else if c = '-' || c = '\u2212' then some (-1)
          else none
        match sign with
        | none => .error .invalid
        | some sign => do
            let (h₁, h₂, cs) ← readPair rest
            let cs := cs.dropWhile fun c => c = ':' || Text.isBlank c
            let (m₁, m₂, cs) ← readPair cs
            if 6 ≤ m₁ then .error .outOfRange
            else .ok (sign * ((h₁ * 10 + h₂) * 3600 + (m₁ * 10 + m₂) * 60 : Nat), cs)

namespace Instant

/-- The instant of a date and a time of day at a distance from UTC. Second 60 is the leap second after
second 59. -/
def ofParts (date : Date) (hour minute second fraction : Nat) (offset : Int) :
    Except TimestampError Instant :=
  let leap := second = 60
  let wallClock := date.days * 86400 +
    (hour * 3600 + minute * 60 + (if leap then 59 else second) : Nat)
  if !date.valid || date.year < -262143 || 262142 < date.year then .error .outOfRange
  else if offset.natAbs ≥ 86400 then .error .outOfRange
  else
    let seconds := wallClock - offset
    if seconds < minSeconds || maxSeconds < seconds then .error .impossible
    else .ok ⟨seconds, fraction + (if leap then 1000000000 else 0)⟩

/-- Read a timestamp. -/
def parse (text : String) : Except TimestampError Instant := do
  let (year, cs) ← readYear text.toList
  let cs ← readMark '-' cs
  let (month, cs) ← readField 1 12 cs
  let cs ← readMark '-' cs
  let (day, cs) ← readField 1 31 cs
  let cs ← match cs with
    | [] => .error .tooShort
    | c :: cs => if c = 'T' || c = 't' || c = ' ' then .ok cs else .error .invalid
  let (hour, cs) ← readField 0 23 cs
  let cs ← readMark ':' cs
  let (minute, cs) ← readField 0 59 cs
  let cs ← readMark ':' cs
  let (second, cs) ← readField 0 60 cs
  let (fraction, cs) ← readFraction cs
  let (offset, cs) ← readOffset (skipBlank cs)
  if skipBlank cs != [] then .error .tooLong
  else ofParts ⟨year, month, day⟩ hour minute second fraction offset

/-- A number in decimal, filled with zeros to a width. -/
def padded (width n : Nat) : String :=
  let digits := Nat.repr n
  String.ofList (List.replicate (width - digits.length) '0') ++ digits

/-- A year has four digits; outside 0 to 9999 it carries its sign. -/
def yearText (year : Int) : String :=
  if 0 ≤ year && year ≤ 9999 then padded 4 year.toNat
  else (if year < 0 then "-" else "+") ++ padded 4 year.natAbs

/-- The fraction of a second with its point, in groups of three digits. -/
def fractionText (nanos : Nat) : String :=
  if nanos = 0 then ""
  else if nanos % 1000000 = 0 then "." ++ padded 3 (nanos / 1000000)
  else if nanos % 1000 = 0 then "." ++ padded 6 (nanos / 1000)
  else "." ++ padded 9 nanos

/-- The date of an instant. -/
def dateText (t : Instant) : String :=
  yearText t.date.year ++ "-" ++ padded 2 t.date.month ++ "-" ++ padded 2 t.date.day

/-- Hour and minute of an instant. -/
def minuteText (t : Instant) : String :=
  padded 2 (t.secondOfDay.toNat / 3600) ++ ":" ++ padded 2 (t.secondOfDay.toNat / 60 % 60)

/-- An instant in UTC. -/
def text (t : Instant) : String :=
  let leap := 1000000000 ≤ t.nanos
  let second := t.secondOfDay.toNat % 60 + (if leap then 1 else 0)
  let fraction := if leap then t.nanos - 1000000000 else t.nanos
  t.dateText ++ "T" ++ t.minuteText ++ ":" ++ padded 2 second ++ fractionText fraction ++ "Z"

/-- An instant to the minute, as a reader sees it. -/
def shortText (t : Instant) : String := t.dateText ++ " " ++ t.minuteText ++ " UTC"

end Instant

end Gazetteer.Time
