import Gazetteer.Glob.Pattern
import Gazetteer.Text.Utf8

/-!
# Matching globs

A pattern is matched against the bytes of a path, so that a question mark stands for one byte.  Matching is by
continuation: what a token leaves is handed to what follows.
-/

namespace Gazetteer.Glob

set_option autoImplicit false

/-- What follows a part of a pattern. -/
abbrev Next := List UInt8 → Bool

/-- The byte of a slash. -/
def slash : UInt8 := 47

/-- A byte that passes a test. -/
def byte (p : UInt8 → Bool) (next : Next) : Next
  | [] => false
  | b :: bs => p b && next bs

/-- Any number of bytes that pass a test. -/
def bytes (p : UInt8 → Bool) (next : Next) : Next
  | [] => next []
  | b :: bs => next (b :: bs) || (p b && bytes p next bs)

/-- Given bytes. -/
def exactly (lead : List UInt8) (next : Next) : Next := fun bs =>
  lead.isPrefixOf bs && next (bs.drop lead.length)

/-- The bytes of a character. -/
def bytesOf (c : Char) : List UInt8 := Text.Utf8.encode c.toString

/-- Whether a byte is in a range of characters: it is one of the bytes of its ends, or lies between the last
of the first and the first of the second. -/
def inRange (b : UInt8) (r : Char × Char) : Bool :=
  let low := bytesOf r.1
  let high := bytesOf r.2
  low.contains b || (r.1 != r.2 && (high.contains b ||
    ((low.getLast?.any fun l => l ≤ b) && (high.head?.any fun h => b ≤ h))))

mutual

/-- Whether a token matches nothing, for want of any token in it. -/
def Token.isVoid : Token → Bool
  | .alternatives branches => areVoid branches
  | _ => false

/-- Whether tokens match nothing, for want of any token that does. -/
def isVoid : List Token → Bool
  | [] => true
  | t :: ts => t.isVoid && isVoid ts

/-- Whether all branches are void. -/
def areVoid : List (List Token) → Bool
  | [] => true
  | ts :: rest => isVoid ts && areVoid rest

end

mutual

/-- Match a token and what follows it. In separate patterns only folder tokens match slashes. -/
def Token.accepts (separate : Bool) (next : Next) : Token → Next
  | .char c => exactly (bytesOf c) next
  | .any => byte (fun b => !(separate && b == slash)) next
  | .many => bytes (fun b => !(separate && b == slash)) next
  | .leadingFolders => fun bs => next bs || bytes (fun _ => true) (exactly [slash] next) bs
  | .inside => exactly [slash] (bytes (fun _ => true) next)
  | .betweenFolders =>
      exactly [slash] fun bs => next bs || bytes (fun _ => true) (exactly [slash] next) bs
  | .oneOf negated ranges => byte (fun b => ranges.any (inRange b) != negated) next
  | .alternatives branches => fun bs =>
      if areVoid branches then next bs else acceptsAny separate next branches bs

/-- Match tokens and what follows them. -/
def acceptsAll (separate : Bool) (next : Next) : List Token → Next
  | [] => next
  | t :: ts => t.accepts separate (acceptsAll separate next ts)

/-- Match one of some branches that are not void, and what follows. -/
def acceptsAny (separate : Bool) (next : Next) : List (List Token) → Next
  | [] => fun _ => false
  | ts :: rest => fun bs =>
      (!isVoid ts && acceptsAll separate next ts bs) || acceptsAny separate next rest bs

end

end Glob

/-- A pattern and whether its stars stop at slashes. -/
structure Glob where
  tokens : List Glob.Token
  separate : Bool
  deriving Repr, Inhabited

namespace Glob

/-- Whether a pattern matches a path as a whole. Two stars alone match everything. -/
def accepts (g : Glob) (path : String) : Bool :=
  match g.tokens with
  | [.leadingFolders] => true
  | ts => acceptsAll g.separate List.isEmpty ts (Text.Utf8.encode path)

end Glob

end Gazetteer
