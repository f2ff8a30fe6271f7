import Gazetteer.Decimal.Shortest
import Gazetteer.Toml.Basic
import Gazetteer.Toml.Step

/-!
# Blanks, texts, numbers and times
-/

namespace Gazetteer.Toml.Scalar

set_option autoImplicit false

open Step

/-! ## Blanks -/

/-- A space or a tab. -/
def isSpace (c : Char) : Bool := c = ' ' || c = '\t'

/-- A character that a comment may hold. -/
def inComment (c : Char) : Bool := c = '\t' || (' ' ≤ c && c != '\x7f')

/-- Skip spaces and tabs. -/
def spaces : Step Unit := do let _ ← run isSpace

/-- A line break. -/
def newline : Step Unit := char '\n' <|> exactly "\r\n"

/-- A comment up to the end of its line. -/
def comment : Step Unit := do
  char '#'
  let _ ← run inComment

/-- The end of the text. -/
def atEnd : Step Unit
  | [] => .done () []
  | cs => .stuck cs

/-- The end of a line. -/
def lineEnd : Step Unit := newline <|> atEnd

/-- Blanks and a comment up to the end of a line. -/
def trailing : Step Unit := do
  spaces
  let _ ← optional comment
  lineEnd

/-- Skip blanks, line breaks and comments. -/
def gap : Step Unit := do
  spaces
  let _ ← all (do
    match ← next with
    | some '#' => do comment; newline; spaces
    | some '\n' | some '\r' => do newline; spaces
    | _ => fail)

/-! ## Texts -/

/-- A hexadecimal digit's value. -/
def hexDigit? (c : Char) : Option Nat :=
  if '0' ≤ c && c ≤ '9' then some (c.toNat - 48)
  else if 'a' ≤ c && c ≤ 'f' then some (c.toNat - 87)
  else if 'A' ≤ c && c ≤ 'F' then some (c.toNat - 55)
  else none

/-- The number that digits to a base stand for. -/
def valueOf (base : Nat) (digits : List Char) : Nat :=
  digits.foldl (fun n c => n * base + (hexDigit? c).getD 0) 0

/-- A character by its number, in so many hexadecimal digits. -/
def codePoint (size : Nat) : Step Char :=
  refine (fun cs =>
    let digits := (cs.take size).takeWhile fun c => (hexDigit? c).isSome
    .done digits (cs.drop digits.length)) fun digits =>
      let n := valueOf 16 digits
      if digits.length = size && (Nat.isValidChar n) then some (Char.ofNat n) else none

/-- An escaped character. -/
def escape : Step Char := do
  char '\\'
  match ← any with
  | 'b' => return '\x08'
  | 'f' => return '\x0c'
  | 'n' => return '\n'
  | 'r' => return '\r'
  | 't' => return '\t'
  | '\\' => return '\\'
  | '"' => return '"'
  | 'u' => must (codePoint 4)
  | 'U' => must (codePoint 8)
  | _ => must fail

/-- A character that stands for itself in a text in double quotes. -/
def isBasic (c : Char) : Bool := isSpace c || (' ' < c && c != '"' && c != '\\' && c != '\x7f')

/-- A text in double quotes. -/
def basicString : Step String := do
  char '"'
  let parts ← all (run1 isBasic <|> (do return [← escape]))
  must (char '"')
  return String.ofList parts.flatten

/-- A character of a text in single quotes. -/
def isLiteral (c : Char) : Bool := c = '\t' || (' ' ≤ c && c != '\x27' && c != '\x7f')

/-- A text in single quotes. -/
def literalString : Step String := do
  char '\x27'
  let body ← run isLiteral
  must (char '\x27')
  return String.ofList body

/-- One or two quotes that belong to a text, because `after` follows them. -/
def innerQuotes (quote : Char) (after : Step Unit) : Step (List Char) :=
  (do char quote; char quote; peek after; return [quote, quote]) <|>
    (do char quote; peek after; return [quote])

/-- A part of a text in triple double quotes. -/
def longBasicPart : Step (List Char) :=
  run1 isBasic <|>
    (do
      char '\\'; spaces; newline
      let _ ← all (newline <|> (do let _ ← run1 isSpace))
      return []) <|>
    (do return [← escape]) <|>
    (do newline; return ['\n'])

/-- A part of a text in triple single quotes. -/
def longLiteralPart : Step (List Char) := run1 isLiteral <|> (do newline; return ['\n'])

/-- A text in triple quotes, made of parts and up to two quotes between them or at the end. -/
def longString (quote : Char) (part : Step (List Char)) : Step String := do
  let bar : Step Unit := do char quote; char quote; char quote
  bar
  let _ ← optional newline
  let first ← must (all part)
  let more ← must (all (do
    let quotes ← innerQuotes quote (do let _ ← part)
    return quotes ++ (← all part).flatten))
  let last ← optional (innerQuotes quote bar)
  must bar
  return String.ofList (first.flatten ++ more.flatten ++ last.getD [])

/-- A text. -/
def string : Step String :=
  longString '"' longBasicPart <|> basicString <|> longString '\x27' longLiteralPart <|>
    literalString

/-! ## Numbers -/

/-- A decimal digit. -/
def isDigit (c : Char) : Bool := '0' ≤ c && c ≤ '9'

/-- Digits of a class, single underscores between them. -/
def digitsOf (p : Char → Bool) : Step (List Char) := do
  let c ← one p
  return c :: (← all (one p <|> (do char '_'; must (one p))))

/-- A sign. -/
def sign : Step (Option Char) := optional (one fun c => c = '+' || c = '-')

/-- The digits of an integer; a zero at the front stands alone. -/
def integerDigits : Step (List Char) :=
  (do
    let c ← one fun c => '1' ≤ c && c ≤ '9'
    return c :: (← all (one isDigit <|> (do char '_'; must (one isDigit))))) <|>
    (do return [← one isDigit])

/-- An integer of 64 bits. -/
def inRange (n : Int) : Option Int :=
  if -9223372036854775808 ≤ n && n < 9223372036854775808 then some n else none

/-- An integer with a base mark. -/
def basedInteger (lead : String) (base : Nat) : Step Int := do
  peek (exactly lead)
  must (refine (do exactly lead; must (digitsOf fun c => (hexDigit? c).any (· < base))) fun digits =>
    inRange (valueOf base digits))

/-- A decimal integer. -/
def decimalInteger : Step Int := fun cs =>
  let read : Step Int := do
    let s ← sign
    let n : Int := valueOf 10 (← integerDigits)
    return if s = some '-' then -n else n
  match read cs with
  | .done n rest => if (inRange n).isSome then .done n rest else .broken cs
  | r => r

/-- An integer. -/
def integer : Step Int :=
  basedInteger "0x" 16 <|> basedInteger "0o" 8 <|> basedInteger "0b" 2 <|> decimalInteger

/-- An exponent. -/
def exponent : Step Int := do
  let _ ← one fun c => c = 'e' || c = 'E'
  let s ← sign
  let digits ← must (digitsOf isDigit)
  let n : Int := valueOf 10 digits
  return if s = some '-' then -n else n

/-- Whether a decimal is too large for a binary fraction of 64 bits: it has at least as many digits before
the point as the bound, and is not below it. -/
def isTooLarge (digits : List Char) (scale : Int) : Bool :=
  let digits := digits.dropWhile (· = '0')
  let size : Int := digits.length + scale
  -- halfway between the largest fraction and the next power of two
  let bound := Nat.pow 2 1024 - Nat.pow 2 970
  if digits.isEmpty || size < 309 then false
  else if 309 < size then true
  else if 0 ≤ scale then bound ≤ valueOf 10 digits * Nat.pow 10 scale.toNat
  else bound * Nat.pow 10 (-scale).toNat ≤ valueOf 10 digits

/-- A number with a fraction or an exponent. -/
def real : Step Unit := fun cs =>
  let read : Step (List Char × Int) := do
    let _ ← sign
    let whole ← integerDigits
    (do return (whole, ← exponent)) <|> (do
      char '.'
      let fraction ← must (digitsOf isDigit)
      let e ← optional exponent
      return (whole ++ fraction, e.getD 0 - fraction.length))
  match read cs with
  | .done (digits, scale) rest => if isTooLarge digits scale then .broken cs else .done () rest
  | .stuck _ =>
      (do
        let _ ← sign
        exactly "inf" <|> exactly "nan" : Step Unit) cs
  | .broken rest => .broken rest

/-! ## Times -/

/-- A number of so many digits within bounds. -/
def bounded (size low high : Nat) : Step Nat :=
  refine (fun cs =>
    let digits := (cs.take size).takeWhile isDigit
    if digits.length = size then .done digits (cs.drop size) else .stuck cs) fun digits =>
      let n := valueOf 10 digits
      if low ≤ n && n ≤ high then some n else none

/-- Number of days of a month. -/
def daysIn (year month : Nat) : Nat :=
  if month = 2 then
    if (year % 4 = 0 && year % 100 != 0) || year % 400 = 0 then 29 else 28
  else if [4, 6, 9, 11].contains month then 30
  else 31

/-- A date. -/
def date : Step Unit := do
  let year ← bounded 4 0 9999
  char '-'
  let month ← must (bounded 2 1 12)
  must (char '-')
  let _ ← must (bounded 2 1 (daysIn year month))

/-- A time of day. -/
def timeOfDay : Step Unit := do
  let _ ← bounded 2 0 23
  char ':'
  let _ ← must (bounded 2 0 59)
  must (char ':')
  let _ ← must (bounded 2 0 60)
  let _ ← optional (do char '.'; run1 isDigit)

/-- How far local time is from universal time. -/
def offset : Step Unit :=
  (do let _ ← one fun c => c = 'Z' || c = 'z') <|> (do
    let _ ← one fun c => c = '+' || c = '-'
    let _ ← must (bounded 2 0 23)
    must (char ':')
    let _ ← must (bounded 2 0 59))

/-- A date, a time of day, or both. -/
def time : Step Unit :=
  (do
    date
    let _ ← optional (do
      let _ ← one fun c => c = 'T' || c = 't' || c = ' '
      timeOfDay
      optional offset)) <|> timeOfDay

end Gazetteer.Toml.Scalar
