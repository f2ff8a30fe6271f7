import Gazetteer.Text.Blank

/-!
# Lexemes

A lexeme is recognised by a function that says how many characters at the front of a text belong to it, or
that none does.  What is recognised depends on where it may stand, so there is no separate pass over the text.
-/

namespace Gazetteer.Syntax

set_option autoImplicit false

/-- Recognises a lexeme at the front of a text by its number of characters. -/
abbrev Scanner := List Char → Option Nat

namespace Scanner

/-- A blank or line break between tokens. -/
def isGap (c : Char) : Bool :=
  let n := c.toNat
  (9 ≤ n && n ≤ 13) || n == 0x20 || n == 0xA0 || n == 0x1680 || (0x2000 ≤ n && n ≤ 0x200B) ||
    n == 0x2028 || n == 0x2029 || n == 0x202F || n == 0x205F || n == 0x2060 || n == 0x3000 ||
    n == 0xFEFF

/-- A character that ends a line in a comment. -/
def endsLine (c : Char) : Bool := c = '\n' || c = '\r' || c = '\u2028' || c = '\u2029'

/-- A decimal digit. -/
def isDigit (c : Char) : Bool := '0' ≤ c && c ≤ '9'

/-- A digit to base sixteen. -/
def isHex (c : Char) : Bool := isDigit c || ('a' ≤ c && c ≤ 'f') || ('A' ≤ c && c ≤ 'F')

/-- A character that may stand inside a name. -/
def isNamePart (c : Char) : Bool :=
  !(c.toNat < 0x20 || isGap c || ":;`\"'@#.,|^&<=>+-*/\\%?!~()[]\x7b\x7d".toList.contains c)

/-- A character that may start a name. -/
def isNameStart (c : Char) : Bool := isNamePart c && !isDigit c

/-- The length of an escaped character of a name. -/
def nameEscape : Scanner
  | '\\' :: 'u' :: '\x7b' :: cs =>
      let digits := cs.takeWhile isHex
      match digits, cs.drop digits.length with
      | _ :: _, '\x7d' :: _ => some (digits.length + 4)
      | _, _ => none
  | '\\' :: 'u' :: a :: b :: c :: d :: _ => if [a, b, c, d].all isHex then some 6 else none
  | _ => none

/-- The length of what continues a name. -/
def nameRest : (fuel : Nat) → List Char → Nat
  | 0, _ => 0
  | _, [] => 0
  | fuel + 1, c :: cs =>
      if isNamePart c then nameRest fuel cs + 1
      else
        match nameEscape (c :: cs) with
        | some n => nameRest fuel ((c :: cs).drop n) + n
        | none => 0

/-- A name or keyword. -/
def name : Scanner
  | [] => none
  | c :: cs =>
      if isNameStart c then some (nameRest cs.length cs + 1)
      else
        match nameEscape (c :: cs) with
        | some n =>
            let rest := (c :: cs).drop n
            some (nameRest rest.length rest + n)
        | none => none

/-- A name that is none of the given words. -/
def nameExcept (words : List String) : Scanner := fun cs =>
  match name cs with
  | some n => if words.contains (String.ofList (cs.take n)) then none else some n
  | none => none

/-- A given word. -/
def word (w : String) : Scanner := fun cs =>
  if w.toList.isPrefixOf cs && name cs = some w.length then some w.length else none

/-- A name behind a hash sign. -/
def privateName : Scanner
  | '#' :: cs => (name cs).map (· + 1)
  | _ => none

/-- Given characters. -/
def exactly (s : String) : Scanner := fun cs =>
  if s.toList.isPrefixOf cs then some s.length else none

/-- Given characters, unless one of some characters follows. -/
def exactlyBut (s : String) (next : List Char) : Scanner := fun cs =>
  if s.toList.isPrefixOf cs then
    match cs.drop s.length with
    | c :: _ => if next.contains c then none else some s.length
    | [] => some s.length
  else none

/-- Digits of a class, single underscores between them. -/
def digitRun (p : Char → Bool) : List Char → Nat
  | [] => 0
  | '_' :: c :: cs => if p c then digitRun p cs + 2 else 0
  | c :: cs => if p c then digitRun p cs + 1 else 0

/-- At least one digit of a class. -/
def digits? (p : Char → Bool) : Scanner
  | [] => none
  | c :: cs => if p c then some (digitRun p cs + 1) else none

/-- An exponent; none counts as no characters. -/
def exponent (cs : List Char) : Nat :=
  match cs with
  | e :: rest =>
      if e = 'e' || e = 'E' then
        let (sign, rest) := match rest with
          | '+' :: rest => (1, rest)
          | '-' :: rest => (1, rest)
          | rest => (0, rest)
        match digits? isDigit rest with
        | some n => n + sign + 1
        | none => 0
      else 0
  | [] => 0

/-- A number behind its base mark, or with `n` for a big integer. -/
def based (p : Char → Bool) (cs : List Char) : Option Nat :=
  (digits? p cs).map fun n => if (cs.drop n).head? = some 'n' then n + 3 else n + 2

/-- A number. -/
def number : Scanner := fun cs =>
  match cs with
  | '0' :: m :: rest =>
      let mark := m.toLower
      let special :=
        if mark = 'x' then based isHex rest
        else if mark = 'o' then based (fun c => '0' ≤ c && c ≤ '7') rest
        else if mark = 'b' then based (fun c => c = '0' || c = '1') rest
        else none
      special.or (decimal cs)
  | cs => decimal cs
where
  decimal (cs : List Char) : Option Nat :=
    match digits? isDigit cs with
    | some n =>
        match cs.drop n with
        | 'n' :: _ => some (n + 1)
        | '.' :: rest =>
            let fraction := (digits? isDigit rest).getD 0
            some (n + 1 + fraction + exponent (rest.drop fraction))
        | rest => some (n + exponent rest)
    | none =>
        match cs with
        | '.' :: rest => (digits? isDigit rest).map fun n => n + 1 + exponent (rest.drop n)
        | _ => none

/-- An escaped character of a text. -/
def escape : Scanner
  | '\\' :: 'x' :: a :: b :: _ => if isHex a && isHex b then some 4 else none
  | '\\' :: 'x' :: _ => none
  | '\\' :: 'u' :: cs => nameEscape ('\\' :: 'u' :: cs)
  | '\\' :: '\r' :: '\n' :: _ => some 3
  | '\\' :: c :: cs =>
      if '0' ≤ c && c ≤ '7' then
        some (((c :: cs).take 3).takeWhile fun c => '0' ≤ c && c ≤ '7').length.succ
      else some 2
  | _ => none

/-- The rest of a quoted text up to its closing quote. -/
def quotedRest (quote : Char) : (fuel : Nat) → List Char → Option Nat
  | 0, _ => none
  | _, [] => none
  | fuel + 1, c :: cs =>
      if c = quote then some 1
      else if c = '\\' then
        match escape (c :: cs) with
        | some n => (quotedRest quote fuel ((c :: cs).drop n)).map (· + n)
        | none => none
      else if c = '\n' || c = '\r' then none
      else (quotedRest quote fuel cs).map (· + 1)

/-- A quoted text. -/
def string : Scanner
  | '"' :: cs => (quotedRest '"' cs.length.succ cs).map (· + 1)
  | '\x27' :: cs => (quotedRest '\x27' cs.length.succ cs).map (· + 1)
  | _ => none

/-- Characters of a template up to its end, an escape or a substitution. -/
def templateChars : Scanner := fun cs =>
  let rec go : List Char → Nat
    | [] => 0
    | '\x60' :: _ => 0
    | '\\' :: _ => 0
    | '\x00' :: _ => 0
    | '$' :: '\x7b' :: _ => 0
    | _ :: cs => go cs + 1
  let n := go cs
  if n = 0 then none else some n

/-- A character class of a regular expression after its opening bracket. -/
def regexClass : List Char → Option Nat
  | [] => none
  | ']' :: _ => some 1
  | '\\' :: c :: cs => if c = '\n' then none else (regexClass cs).map (· + 2)
  | c :: cs => if c = '\n' || c = '\\' then none else (regexClass cs).map (· + 1)

/-- The rest of a regular expression up to its closing slash. -/
def regexRest : (fuel : Nat) → List Char → Option Nat
  | 0, _ => none
  | _, [] => none
  | fuel + 1, c :: cs =>
      if c = '/' then some 1
      else if c = '\n' then none
      else if c = '\\' then
        match cs with
        | d :: cs => if d = '\n' then none else (regexRest fuel cs).map (· + 2)
        | [] => none
      else if c = '[' then
        match regexClass cs with
        | some n => (regexRest fuel (cs.drop n)).map (· + (n + 1))
        | none => none
      else (regexRest fuel cs).map (· + 1)

/-- A regular expression with its flags. -/
def regex : Scanner
  | '/' :: c :: cs =>
      if c = '/' || c = '*' then none
      else
        match regexRest (cs.length + 2) (c :: cs) with
        | some n =>
            let flags := ((c :: cs).drop n).takeWhile fun c => 'a' ≤ c && c ≤ 'z'
            some (n + 1 + flags.length)
        | none => none
  | _ => none

/-- The rest of a comment between stars up to its end. -/
def blockRest : List Char → Option Nat
  | [] => none
  | '*' :: '/' :: _ => some 2
  | _ :: cs => (blockRest cs).map (· + 1)

/-- A comment. -/
def comment : Scanner
  | '/' :: '/' :: cs => some (cs.takeWhile fun c => !endsLine c).length.succ.succ
  | '/' :: '*' :: cs => (blockRest cs).map (· + 2)
  | _ => none

/-- A comment in the markup style: it starts with one of two marks and ends with its line. -/
def markupComment : Scanner := fun cs =>
  let rest := fun (n : Nat) =>
    some (n + ((cs.drop n).takeWhile fun c => !(c = '\n' || c = '\u2028' || c = '\u2029')).length)
  if "<!--".toList.isPrefixOf cs then rest 4
  else if "-->".toList.isPrefixOf cs then rest 3
  else none

/-- The first line, if it names an interpreter. -/
def interpreterLine : Scanner
  | '#' :: '!' :: cs => some (cs.takeWhile (· != '\n')).length.succ.succ
  | _ => none

/-- Text between tags. Line breaks and the blanks after them alone are no text. -/
def markupText : Scanner := fun cs =>
  let rec go : List Char → (atBreak saw : Bool) → Nat → Option Nat
    | [], _, saw, n => if saw then some n else none
    | c :: cs, atBreak, saw, n =>
        if "<>\x7b\x7d&\x00".toList.contains c then (if saw then some n else none)
        else if c = '\n' then go cs true saw (n + 1)
        else
          let blank := c = ' ' || ('\t' ≤ c && c ≤ '\r')
          let atBreak := atBreak && blank
          go cs atBreak (saw || !atBreak) (n + 1)
  go cs false false 0

/-- A character named by an ampersand and a semicolon. -/
def entity : Scanner
  | '&' :: cs =>
      let finish (n most : Nat) (lead : Nat) : Option Nat :=
        if 1 ≤ n && n ≤ most && (cs.drop (lead + n)).head? = some ';' then some (lead + n + 2)
        else none
      match cs with
      | '#' :: x :: rest =>
          if x = 'x' || x = 'X' then finish (rest.takeWhile isHex).length 6 2
          else finish ((x :: rest).takeWhile isDigit).length 5 1
      | cs => finish (cs.takeWhile Char.isAlpha).length 30 0
  | _ => none

/-- A name in a tag, which may hold hyphens. -/
def tagName : Scanner := fun cs =>
  match cs with
  | c :: rest =>
      if c.isAlpha || c = '_' || c = '$' then
        let n := (rest.takeWhile fun c => c.isAlphanum || c = '_' || c = '$' || c = '-').length + 1
        if (cs.take n).contains '-' then some n else name cs
      else name cs
  | [] => none

/-- A quoted attribute. It may span lines, and an ampersand in it is plain unless it starts a name. -/
def attributeText : Scanner
  | q :: cs =>
      if q = '"' || q = '\x27' then
        let n := (cs.takeWhile (· != q)).length
        if n < cs.length then some (n + 2) else none
      else none
  | [] => none

/-- All operators, so that the longest at a place can be found. -/
def operators : List String :=
  [">>>=", "===", "!==", "**=", "<<=", ">>=", ">>>", "&&=", "||=", "??=", "...", "=>", "==", "!=",
    "<=", ">=", "&&", "||", "??", "?.", "++", "--", "+=", "-=", "*=", "/=", "%=", "&=", "|=", "^=",
    "<<", ">>", "**", "+", "-", "*", "/", "%", "&", "|", "^", "<", ">", "=", "!", "?", "~", "."]

/-- The longest operator at the front of a text. -/
def operatorAt (cs : List Char) : Option String :=
  operators.find? fun o => o.toList.isPrefixOf cs

/-- One of some operators; a longer operator hides a shorter one. -/
def operatorOf (wanted : List String) : Scanner := fun cs =>
  match operatorAt cs with
  | some o => if wanted.contains o then some o.length else none
  | none => none

end Scanner

end Gazetteer.Syntax
