import Gazetteer.Text.Blank

/-!
# Paths

A path is a text of names between slashes.  `components` is what it means: repeated slashes and single dots
within it count for nothing, and neither does a slash at its end.  `relative?` expresses a path relative to a
root that it lies under.
-/

namespace Gazetteer

set_option autoImplicit false

/-- A step of a path. -/
inductive Component
  /-- The slash at the front of an absolute path. -/
  | root
  /-- A single dot at the front of a relative path. -/
  | current
  /-- Two dots. -/
  | parent
  | name (s : String)
  deriving Repr, DecidableEq

/-- A path as it is written. -/
structure Path where
  text : String
  deriving Repr, DecidableEq, Inhabited

namespace Path

/-- The pieces of a text between slashes. -/
def pieces (s : String) : List String :=
  (Text.splitBy (· = '/') s.toList).map String.ofList

/-- The component of a piece behind the first; an empty piece and a dot are none. -/
def inner? (piece : String) : Option Component :=
  if piece = "" || piece = "." then none
  else if piece = ".." then some .parent
  else some (.name piece)

/-- The components of a path. -/
def components (p : Path) : List Component :=
  match pieces p.text with
  | [] => []
  | first :: rest =>
      let front :=
        if first = "" then (if rest.isEmpty then [] else [.root])
        else if first = "." then [.current]
        else (inner? first).toList
      front ++ rest.filterMap inner?

/-- Whether the path starts at the root of the file system. -/
def isAbsolute (p : Path) : Bool := Text.startsWith p.text "/"

/-- A path below a directory; an absolute path stands for itself. -/
def join (p : Path) (s : String) : Path :=
  if Text.startsWith s "/" then ⟨s⟩
  else if p.text = "" then ⟨s⟩
  else if Text.endsWith p.text "/" then ⟨p.text ++ s⟩
  else ⟨p.text ++ "/" ++ s⟩

/-- What follows a list of components. -/
def after? : (lead : List Component) → List Component → Option (List Component)
  | [], cs => some cs
  | _ :: _, [] => none
  | a :: lead, c :: cs => if a = c then after? lead cs else none

/-- Whether a path is another or lies below it. -/
def isUnder (p lead : Path) : Bool := (after? lead.components p.components).isSome

/-- The names of some components; a dot is skipped, a step upwards or to the root has no name. -/
def names? : List Component → Option (List String)
  | [] => some []
  | .name s :: cs => (names? cs).map (s :: ·)
  | .current :: cs => names? cs
  | _ :: _ => none

/-- A path relative to a root it lies under, with single slashes. -/
def relative? (root p : Path) : Option String := do
  let rest ← after? root.components p.components
  return String.intercalate "/" (← names? rest)

/-- The last name of a path, unless it ends in two dots. -/
def fileName? (p : Path) : Option String :=
  match p.components.getLast? with
  | some (.name s) => some s
  | _ => none

/-- The part of a file name behind its last dot; a dot at the front does not count. -/
def extensionOf? (name : String) : Option String :=
  match Text.splitBy (· = '.') name.toList with
  | [] | [_] => none
  | first :: rest =>
      if first.isEmpty && rest.length = 1 then none else rest.getLast?.map String.ofList

/-- The part of the last name behind its last dot. -/
def extension? (p : Path) : Option String := p.fileName?.bind extensionOf?

end Path

end Gazetteer
