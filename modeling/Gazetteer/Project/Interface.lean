import Gazetteer.Files.Path
import Gazetteer.Ordered.SortedSet
import Gazetteer.Project.Package
import Gazetteer.Record.Surface
import Gazetteer.Registry.Symbols

/-!
# What a package offers

A package declares entry files, usually those that a build makes of its sources.  Each is resolved to the source
file it comes from, if that was scanned; the public names are what the resolved files export.
-/

namespace Gazetteer

set_option autoImplicit false

namespace Package

/-- Cut `./` at the front as often as it stands there. -/
def withoutHere : List Char → List Char
  | '.' :: '/' :: cs => withoutHere cs
  | cs => cs

mutual

/-- All texts in a value. -/
def textsIn : Json → List String
  | .string s => [s]
  | .array items => textsInItems items
  | .object members => textsInMembers members
  | _ => []

/-- All texts in some values. -/
def textsInItems : List Json → List String
  | [] => []
  | v :: vs => textsIn v ++ textsInItems vs

/-- All texts in the values of some members. -/
def textsInMembers : List (String × Json) → List String
  | [] => []
  | (_, v) :: ms => textsIn v ++ textsInMembers ms

end

/-- The entry files that a package declares; patterns are none. -/
def entries (p : Package) : List String :=
  let named := [p.main, p.module, p.types, p.typings].filterMap id
  let exported := (p.exports.map textsIn).getD []
  ((named ++ exported).map fun e => String.ofList (withoutHere e.toList)).filter fun e =>
    e != "" && !e.toList.contains '*'

/-- The commands that a package installs: the keys of an object, or the last part of its own name. -/
def commands (p : Package) : List String :=
  match p.bin with
  | some (.object members) => members.map (·.1)
  | some (.string _) =>
      (p.name.map fun name => (Path.pieces name).getLast?.getD name).toList
  | _ => []

end Package

namespace Surface

/-- Entry files that are looked for if none of the declared ones is found. -/
def usualStems : List String := ["index", "src/index"]

/-- Folders that hold what a build makes of `src`. -/
def outputFolders : List String := ["dist", "build", "lib", "out"]

/-- Extensions of source files, in the order in which they are tried. -/
def sourceExtensions : List String := ["ts", "tsx", "mts", "cts", "js", "jsx", "mjs", "cjs"]

/-- What is cut from the end of a declared entry file. -/
def entrySuffixes : List String :=
  [".d.mts", ".d.cts", ".d.ts", ".mts", ".cts", ".tsx", ".ts", ".mjs", ".cjs", ".jsx", ".js"]

/-- A declared entry file without its extension. -/
def stemOf (declared : String) : String :=
  let cut := (entrySuffixes.find? fun suffix => Text.endsWith declared suffix).map fun suffix =>
    declared.toList.take (declared.length - suffix.length)
  String.ofList (Text.trimEnd (· = '/') (cut.getD declared.toList))

/-- The stems that may belong to an entry file: its own, and the one in `src` that a build made it from. -/
def stems (declared : String) : List String :=
  let stem := stemOf declared
  match Path.pieces stem with
  | first :: second :: rest =>
      if outputFolders.contains first then
        [stem, "src/" ++ String.intercalate "/" (second :: rest)]
      else [stem]
  | _ => [stem]

/-- The files a stem may stand for. -/
def withExtensions (stem : String) : List String :=
  sourceExtensions.map fun e => stem ++ "." ++ e

/-- All files that a declared entry file may come from, the best first. -/
def candidates (declared : String) : List String :=
  declared :: (stems declared).flatMap fun stem =>
    withExtensions stem ++ withExtensions (stem ++ "/index")

/-- The source file that an entry file comes from. -/
def resolve? (files : List String) (declared : String) : Option String :=
  (candidates declared).find? files.contains

/-- The entry files that were resolved, or the usual ones if there are none. -/
def resolved (files declared : List String) : List String :=
  match declared.filterMap (resolve? files) with
  | [] => usualStems.filterMap fun stem => (withExtensions stem).find? files.contains
  | found => found

/-- What a project with the given source files and exports offers. -/
def make (package : Option Package) (files : List String) (exports : List Export) : Surface :=
  let declared := (package.map (·.entries)).getD []
  let found := resolved files declared
  let missing := declared.filter fun e => (resolve? files e).isNone
  let names := (exports.filter fun e => found.contains e.file).map fun e =>
    PublicName.mk e.file e.name e.kind
  { entryPoints := (SortedSet.ofList (found ++ missing)).toList
    publicNames := dedupBy (fun a b : PublicName => a = b) (names.mergeSort PublicName.atMost)
    commands := (package.map (·.commands)).getD []
    scripts := (package.map (·.scripts)).getD ∅ }

end Surface

end Gazetteer
