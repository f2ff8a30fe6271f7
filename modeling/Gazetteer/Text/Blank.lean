/-!
# Blank characters and trimming

`isBlank` is the Unicode property White_Space, the class that trimming and word splitting use.
`trimStart`, `trimEnd` and `trim` cut a text at its ends by any character class, and `words` splits
it into its maximal runs of characters that are not blank.  All work on lists of characters, so that
what remains of a text is a suffix or prefix of the list.
-/

namespace Gazetteer.Text

set_option autoImplicit false

/-- Unicode White_Space. -/
def isBlank (c : Char) : Bool :=
  let n := c.toNat
  (9 ≤ n && n ≤ 13) || n == 0x20 || n == 0x85 || n == 0xA0 || n == 0x1680 ||
    (0x2000 ≤ n && n ≤ 0x200A) || n == 0x2028 || n == 0x2029 || n == 0x202F || n == 0x205F ||
    n == 0x3000

/-- Cut the leading characters of a class. -/
def trimStart (p : Char → Bool) (cs : List Char) : List Char := cs.dropWhile p

/-- Cut the trailing characters of a class. -/
def trimEnd (p : Char → Bool) (cs : List Char) : List Char := (cs.reverse.dropWhile p).reverse

/-- Cut a class of characters at both ends. -/
def trim (p : Char → Bool) (cs : List Char) : List Char := trimEnd p (trimStart p cs)

/-- A text without the blanks at its ends. -/
def strip (s : String) : String := String.ofList (trim isBlank s.toList)

/-- Split a text at every character of a class; `n` separators give `n + 1` pieces. -/
def splitBy (p : Char → Bool) : List Char → List (List Char)
  | [] => [[]]
  | c :: cs =>
      if p c then [] :: splitBy p cs
      else
        match splitBy p cs with
        | [] => [[c]]
        | piece :: pieces => (c :: piece) :: pieces

/-- Cut a text at its first character of a class. -/
def cutAt? (p : Char → Bool) : List Char → Option (List Char × List Char)
  | [] => none
  | c :: cs =>
      if p c then some ([], cs) else (cutAt? p cs).map fun (before, after) => (c :: before, after)

/-- The maximal runs of characters that are not blank, in order. -/
def words (cs : List Char) : List (List Char) :=
  (splitBy isBlank cs).filter (!·.isEmpty)

/-- Each run of blanks becomes one space, and the ends lose theirs. -/
def collapse (s : String) : String :=
  String.intercalate " " ((words s.toList).map String.ofList)

/-- What follows `lead` in a text that starts with it. -/
def after? : (lead : List Char) → List Char → Option (List Char)
  | [], cs => some cs
  | _ :: _, [] => none
  | a :: lead, c :: cs => if a = c then after? lead cs else none

/-- Whether a text starts with another. -/
def startsWith (s lead : String) : Bool := lead.toList.isPrefixOf s.toList

/-- Whether a text ends with another. -/
def endsWith (s tail : String) : Bool := tail.toList.isSuffixOf s.toList

/-- Whether a text occurs in another. -/
def occursIn (needle : List Char) : List Char → Bool
  | [] => needle.isEmpty
  | c :: cs => needle.isPrefixOf (c :: cs) || occursIn needle cs

/-- The small letter of an ASCII capital; all other characters stay. -/
def lower (s : String) : String := String.ofList (s.toList.map Char.toLower)

/-- Number of bytes of a text in UTF-8. -/
def byteLength (cs : List Char) : Nat := cs.foldl (fun n c => n + c.utf8Size) 0

end Gazetteer.Text
