import Gazetteer.Files.Tree
import Gazetteer.Project.Package
import Gazetteer.Record.TechStack
import Gazetteer.Registry.Symbols
import Gazetteer.Toml.Parser

/-!
# Declared dependencies

Dependencies are read from the two manifest files at the root of a project.  A file that is missing counts for
nothing, and one that cannot be read is a complaint.
-/

namespace Gazetteer

set_option autoImplicit false

/-- Something that was found wrong with a file. -/
structure Complaint where
  file : String
  reason : String
  deriving Repr, DecidableEq

/-- What the manifest files at a root declare. -/
structure Declared where
  package : Option Package := none
  dependencies : List Dependency := []
  devDependencies : List Dependency := []
  /-- The lock files that exist, in the order of preference. -/
  lockfiles : List String := []
  hasCargo : Bool := false
  complaints : List Complaint := []
  deriving Repr

namespace Declared

/-- The name of the manifest of a Rust project. -/
def cargoFile : String := "Cargo.toml"

/-- Lock files with the package managers that write them, in the order of preference. -/
def lockfileManagers : List (String × String) :=
  [("pnpm-lock.yaml", "pnpm"), ("yarn.lock", "yarn"), ("bun.lockb", "bun"), ("bun.lock", "bun"),
    ("package-lock.json", "npm"), ("npm-shrinkwrap.json", "npm")]

/-- The dependencies in a table of a package. -/
def ofPackage (table : SortedMap String Json) : List Dependency :=
  table.entries.map fun (name, version) =>
    ⟨name, version.string?.getD "", Package.fileName⟩

/-- The version that a dependency asks for: the text itself, or that of its `version`. -/
def cargoVersion : Toml → String
  | .string s => s
  | t => ((t.get? "version").bind (·.string?)).getD ""

/-- The dependencies in a table of the manifest of a Rust project. -/
def ofCargo (document : Toml) (name : String) : List Dependency :=
  (((document.get? name).bind (·.members?)).getD []).map fun (name, _, v) =>
    ⟨name, cargoVersion v, cargoFile⟩

/-- In order, each once. -/
def tidy (ds : List Dependency) : List Dependency :=
  dedupBy (fun a b : Dependency => a = b) (ds.mergeSort Dependency.atMost)

/-- Read a file with a parser: nothing if it is missing, a complaint if it cannot be read. -/
def readWith {α : Type} (t : FileTree) (root : Path) (file : String)
    (parse : String → Except String α) : Option α × List Complaint :=
  match t.readText (root.join file) with
  | .error .notFound => (none, [])
  | .error e => (none, [⟨file, e.message⟩])
  | .ok text =>
      match parse text with
      | .ok a => (some a, [])
      | .error reason => (none, [⟨file, reason⟩])

/-- What the files at a root declare. -/
def read (t : FileTree) (root : Path) : Declared :=
  let (package, complaints) := readWith t root Package.fileName Package.parse
  let (cargo, more) := readWith t root cargoFile fun text =>
    (Toml.parse text).mapError Toml.Place.fault
  let ofPackage (part : Package → SortedMap String Json) : List Dependency :=
    (package.map fun p => ofPackage (part p)).getD []
  let ofCargo (name : String) : List Dependency := (cargo.map fun d => ofCargo d name).getD []
  { package
    dependencies := tidy (ofPackage (·.dependencies) ++ ofPackage (·.peerDependencies) ++
      ofCargo "dependencies" ++ ofCargo "build-dependencies")
    devDependencies := tidy (ofPackage (·.devDependencies) ++ ofCargo "dev-dependencies")
    lockfiles := (lockfileManagers.map (·.1)).filter fun file => t.isFile (root.join file)
    hasCargo := cargo.isSome
    complaints := complaints ++ more }

/-- The names of all dependencies. -/
def names (d : Declared) : List String := (d.dependencies ++ d.devDependencies).map (·.name)

/-- The package manager: the one that the package names, else that of the first lock file, else the one
that goes with the manifests present. -/
def packageManager? (d : Declared) : Option String :=
  let named := (d.package.bind (·.packageManager)).bind fun field =>
    let name := String.ofList (field.toList.takeWhile (· != '@'))
    if name = "" then none else some name
  named.or <| (d.lockfiles.head?.bind fun file => lockfileManagers.lookup file).or <|
    if d.package.isSome then some "npm" else if d.hasCargo then some "cargo" else none

end Declared

end Gazetteer
