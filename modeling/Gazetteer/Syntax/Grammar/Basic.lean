import Gazetteer.Syntax.Rule

/-!
# Rules that all parts of the grammar share
-/

namespace Gazetteer.Syntax.Grammar

set_option autoImplicit false

open Rule

/-- A keyword. -/
def word (w : String) : Rule := .token .word (Scanner.word w)

/-- Punctuation. -/
def mark (s : String) : Rule := .token .word (Scanner.exactly s)

/-- One of some operators. -/
def operator (os : List String) : Rule := .token .word (Scanner.operatorOf os)

/-- An equals sign that is no part of a longer operator. -/
def equals : Rule := operator ["="]

/-- Any name. -/
def anyName : Rule := .token .identifier Scanner.name

/-- A name that is none of the given words. -/
def nameBut (words : List String) : Rule := .token .identifier (Scanner.nameExcept words)

/-- Items separated by commas; any of them, also the last, may be missing. -/
def loosely (item : Rule) : Rule := all [opt item, .many (all [mark ",", opt item])]

/-- At least one item, separated by commas. -/
def commas (item : Rule) : Rule := separated (mark ",") item

/-- Items separated by commas, with a comma after the last if there is one. -/
def listed (item : Rule) : Rule := opt (all [commas item, opt (mark ",")])

/-- Nothing, unless a statement may end here although an operator could follow. -/
def goesOn (d : Dialect) (ends : Bool) : Rule :=
  if ends then .test fun cs => !Semicolon.endsSoon d true cs.length.succ cs else .nothing

/-- Nothing, unless a statement may end here and no operator could follow. -/
def goesOnPlainly (d : Dialect) (ends : Bool) : Rule :=
  if ends then .test fun cs => !Semicolon.endsSoon d false cs.length.succ cs else .nothing

/-- A keyword that is a name if a statement may end right behind it. -/
def leadWord (d : Dialect) (w : String) : Rule := all [word w, goesOn d true]

/-- Blanks and a comment. -/
def spacedComment : Scanner := fun cs =>
  let n := (cs.takeWhile Scanner.isGap).length
  (Scanner.comment (cs.drop n)).map (n + ·)

/-- The end of a statement without a semicolon. Comments that follow directly belong to the statement. -/
def bareEnd (d : Dialect) : Rule :=
  let atEnd (cs : List Char) : Bool := Semicolon.endsAt d false cs || Semicolon.endsAt d true cs
  let comment : Scanner := fun cs =>
    if !atEnd cs && Semicolon.endsSoon d false cs.length.succ cs then spacedComment cs else none
  all [.many (.rawToken .comment comment), .test atEnd]

/-- The end of a statement. -/
def semicolon (d : Dialect) : Rule := any [mark ";", bareEnd d]

/-- A quoted text. -/
def stringLiteral : Rule := .token .string Scanner.string

/-- A block of statements. -/
def block : Rule := .phrase .block

/-- An expression inside brackets. -/
def inner : Rule := .phrase (.expression false)

/-- Kinds that may stand to the left of an assignment. -/
def isTarget : Kind → Bool
  | .identifier | .memberExpression | .subscriptExpression | .nonNullExpression | .objectPattern
  | .arrayPattern => true
  | _ => false

/-- Any kind. -/
def anyKind (_ : Kind) : Bool := true

/-- A wrapper of any tree without a part for it. -/
def wrapOther (a : Rule) : Rule := .wrap anyKind .other none a

/-- A node of no particular kind. -/
def group (as : List Rule) : Rule := .node .other (all as)

/-- A rule for typed source only. -/
def typed (d : Dialect) (a : Rule) : Rule := if d.isTyped then a else any []

/-- An optional rule for typed source only. -/
def optTyped (d : Dialect) (a : Rule) : Rule := if d.isTyped then opt a else .nothing

/-- The front of a property name. -/
def startsProperty (cs : List Char) : Bool :=
  match cs.dropWhile Scanner.isGap with
  | [] => false
  | c :: cs =>
      Scanner.isNameStart c || c = '\\' || "\"'[#".toList.contains c || Scanner.isDigit c ||
        (c = '.' && (cs.head?.map Scanner.isDigit).getD false) ||
        (c = '/' && (Scanner.comment (c :: cs)).isSome)

/-- A modifier in front of a property name. In a class it is a name if a field may end behind it. -/
def modifier (d : Dialect) (inClass : Bool) (w : String) : Rule :=
  all [word w, goesOnPlainly d inClass, .test startsProperty]

/-- A modifier in front of a property name or the star of a generator. -/
def modifierOrStar (d : Dialect) (inClass : Bool) (w : String) : Rule :=
  all [word w, goesOnPlainly d inClass,
    .test fun cs => startsProperty cs || (cs.dropWhile Scanner.isGap).head? = some '*']

/-- The name of a property. -/
def propertyName : Rule :=
  any [group [mark "[", inner, mark "]"], stringLiteral, .token .other Scanner.number,
    .token .other Scanner.privateName, .token .propertyIdentifier Scanner.name]

end Gazetteer.Syntax.Grammar
