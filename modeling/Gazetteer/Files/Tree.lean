import Gazetteer.Files.Path
import Gazetteer.Ordered.SortedMap
import Gazetteer.Text.Utf8

/-!
# File trees

A file tree is a value: a finite map from locations, which are lists of names from the top down, to entries.  A
path leads to a location by its components, and every name on the way must be that of a folder.  Each operation
that changes a tree changes the entry of one location (`get?_put`), or adds folders.
-/

namespace Gazetteer

set_option autoImplicit false

/-- The names that lead from the top to a place. -/
abbrev Location := List String

/-- What is at a location. -/
inductive Entry
  | folder
  | file (bytes : List UInt8)
  deriving Repr, DecidableEq

/-- Why a path cannot be used. -/
inductive FileError
  | notFound
  | notFolder
  | isFolder
  | exists
  | notText
  deriving Repr, DecidableEq

/-- How the error reads. -/
def FileError.message : FileError → String
  | .notFound => "No such file or directory (os error 2)"
  | .exists => "File exists (os error 17)"
  | .notFolder => "Not a directory (os error 20)"
  | .isFolder => "Is a directory (os error 21)"
  | .notText => "stream did not contain valid UTF-8"

/-- Files and folders by their location. The top is always a folder. -/
structure FileTree where
  entries : SortedMap Location Entry := ∅
  /-- Where relative paths start. -/
  current : Location := []
  deriving Repr

namespace FileTree

instance : Inhabited FileTree := ⟨{}⟩

/-- What is at a location. -/
def get? (t : FileTree) (l : Location) : Option Entry :=
  if l = [] then some .folder else t.entries.get? l

/-- Set the entry of a location. -/
def put (t : FileTree) (l : Location) (e : Entry) : FileTree :=
  { t with entries := t.entries.insert l e }

theorem get?_put {t : FileTree} {l : Location} {e : Entry} (h : l ≠ []) :
    (t.put l e).get? l = some e := by simp [get?, put, h]

/-- Follow components from a location. -/
def walk (t : FileTree) (start : Location) : List Component → Except FileError Location
  | [] => .ok start
  | c :: cs =>
      match t.get? start with
      | none => .error .notFound
      | some (.file _) => .error .notFolder
      | some .folder =>
          match c with
          | .root => t.walk [] cs
          | .current => t.walk start cs
          | .parent => t.walk start.dropLast cs
          | .name s =>
              if (t.get? (start ++ [s])).isSome then t.walk (start ++ [s]) cs else .error .notFound

/-- The location that a path leads to, if something is there. -/
def locate (t : FileTree) (p : Path) : Except FileError Location :=
  t.walk (if p.isAbsolute then [] else t.current) p.components

/-- What a path leads to. -/
def find (t : FileTree) (p : Path) : Except FileError Entry := do
  match t.get? (← t.locate p) with
  | some e => return e
  | none => .error .notFound

/-- Whether a path leads to a folder. -/
def isFolder (t : FileTree) (p : Path) : Bool :=
  match t.find p with
  | .ok .folder => true
  | _ => false

/-- Whether a path leads to a file. -/
def isFile (t : FileTree) (p : Path) : Bool :=
  match t.find p with
  | .ok (.file _) => true
  | _ => false

/-- The bytes of a file. -/
def read (t : FileTree) (p : Path) : Except FileError (List UInt8) := do
  match ← t.find p with
  | .file bytes => return bytes
  | .folder => .error .isFolder

/-- The text of a file. -/
def readText (t : FileTree) (p : Path) : Except FileError String := do
  match Text.Utf8.decode (← t.read p) with
  | .ok text => return text
  | .error _ => .error .notText

/-- The folder that components lead to, without the last of them, and the last if it is a name. -/
def slot (t : FileTree) (start : Location) (cs : List Component) :
    Except FileError (Location × Option String) := do
  let folder ← t.walk start cs.dropLast
  match t.get? folder with
  | some .folder =>
      match cs.getLast? with
      | some (.name s) => return (folder, some s)
      | _ => return (folder, none)
  | _ => .error .notFolder

/-- Write a file as a whole; what it held before is gone. -/
def replace (t : FileTree) (p : Path) (bytes : List UInt8) : Except FileError FileTree := do
  match ← t.slot (if p.isAbsolute then [] else t.current) p.components with
  | (_, none) => .error .isFolder
  | (folder, some s) =>
      match t.get? (folder ++ [s]) with
      | some .folder => .error .isFolder
      | _ => return t.put (folder ++ [s]) (.file bytes)

/-- Make a single folder. -/
def makeFolder (t : FileTree) (start : Location) (cs : List Component) :
    Except FileError FileTree := do
  match ← t.slot start cs with
  | (_, none) => .error .exists
  | (folder, some s) =>
      if (t.get? (folder ++ [s])).isSome then .error .exists
      else return t.put (folder ++ [s]) .folder

/-- Whether components lead to a folder. -/
def leadsToFolder (t : FileTree) (start : Location) (cs : List Component) : Bool :=
  match t.walk start cs with
  | .ok l => t.get? l = some .folder
  | .error _ => false

/-- Make a folder and those it lies in, given its components in reverse. Folders made before an error stay. -/
def makeFoldersIn (t : FileTree) (start : Location) : List Component → FileTree × Except FileError Unit
  | [] => (t, .ok ())
  | c :: up =>
      let cs := (c :: up).reverse
      let attempt (t : FileTree) (missing : Unit → FileTree × Except FileError Unit) :
          FileTree × Except FileError Unit :=
        match t.makeFolder start cs with
        | .ok t => (t, .ok ())
        | .error .notFound => missing ()
        | .error .exists =>
            (t, if t.leadsToFolder start cs then .ok () else .error .exists)
        | .error e => (t, .error e)
      attempt t fun () =>
        match t.makeFoldersIn start up with
        | (t, .ok ()) => attempt t fun () => (t, .error .notFound)
        | r => r

/-- Make the folder of a path and those it lies in. -/
def makeFolders (t : FileTree) (p : Path) : FileTree × Except FileError Unit :=
  t.makeFoldersIn (if p.isAbsolute then [] else t.current) p.components.reverse

/-- Remove a location and everything below it. -/
def remove (t : FileTree) (l : Location) : FileTree :=
  { t with entries := t.entries.filter fun key _ => !l.isPrefixOf key }

/-- The text of the absolute path to a location. -/
def pathOf (l : Location) : Path := ⟨"/" ++ String.intercalate "/" l⟩

/-- What an entry shows of itself in the listing of a folder that it is in or below. -/
def shown? (l key : Location) (e : Entry) : Option (String × Entry) :=
  if l.isPrefixOf key then
    match key.drop l.length with
    | [] => none
    | name :: rest => some (name, if rest.isEmpty then e else .folder)
  else none

/-- What is directly in a place, by name. Where something lies below a name, there is a folder. -/
def items (t : FileTree) (l : Location) : List (String × Entry) :=
  (t.entries.entries.filterMap fun (key, e) => shown? l key e).eraseDups

/-- List a folder; of a file nothing is listed. -/
def list (t : FileTree) (l : Location) : Except FileError (List (String × Entry)) :=
  let items := t.items l
  if (t.get? l).isNone && items.isEmpty then .error .notFound else .ok items

/-- How many names lead to the deepest entry. -/
def depth (t : FileTree) : Nat := (t.entries.keys.map (·.length)).max?.getD 0

/-- The files below a location: their names from there on, and their bytes. -/
def filesBelow (t : FileTree) (l : Location) : List (List String × List UInt8) :=
  t.entries.entries.filterMap fun (key, e) =>
    match e with
    | .file bytes =>
        if l.isPrefixOf key && l.length < key.length then some (key.drop l.length, bytes) else none
    | .folder => none

end FileTree

end Gazetteer
