import Gazetteer.Json.Decode

/-!
# Dependencies and the technology of a project

A dependency is declared by name and version in one of the project's manifest files.  The technology of a
project is its language, its dependencies and the tools they stand for.
-/

namespace Gazetteer

set_option autoImplicit false

open Json

/-- A declared dependency. -/
structure Dependency where
  name : String
  version : String
  /-- The manifest file that declares it, relative to the root. -/
  source : String
  deriving Repr, DecidableEq

namespace Dependency

/-- A dependency as JSON. -/
def encode (d : Dependency) : Json :=
  .record [("name", .string d.name), ("version", .string d.version), ("source", .string d.source)]

/-- The fields of a dependency. -/
def fields : Fields Decoder (String × String × String × Unit) :=
  .field "name" .text .required <|
  .field "version" .text .required <|
  .field "source" .text .required .done

/-- Read a dependency. -/
def decode : Decoder Dependency := fun v => do
  let (name, version, source, ()) ← fields.record "struct DependencyRef" v
  return ⟨name, version, source⟩

/-- By name, then by version, then by source. -/
def atMost (a b : Dependency) : Bool :=
  a.name < b.name || (a.name = b.name &&
    (a.version < b.version || (a.version = b.version && a.source ≤ b.source)))

end Dependency

/-- Languages, tools and dependencies of a project. -/
structure TechStack where
  language : String
  packageManager : Option String
  dependencies : List Dependency
  devDependencies : List Dependency
  testingFramework : Option String
  bundler : Option String
  linter : Option String
  formatter : Option String
  frameworks : List String
  buildTools : List String
  deriving Repr, DecidableEq

namespace TechStack

/-- A text or `null`. -/
def encodeOptional : Option String → Json
  | some s => .string s
  | none => .null

/-- The technology of a project as JSON. -/
def encode (t : TechStack) : Json :=
  .record
    [("language", .string t.language), ("packageManager", encodeOptional t.packageManager),
      ("dependencies", .array (t.dependencies.map (·.encode))),
      ("devDependencies", .array (t.devDependencies.map (·.encode))),
      ("testingFramework", encodeOptional t.testingFramework),
      ("bundler", encodeOptional t.bundler), ("linter", encodeOptional t.linter),
      ("formatter", encodeOptional t.formatter), ("frameworks", .strings t.frameworks),
      ("buildTools", .strings t.buildTools)]

/-- The fields of a technology record. -/
def fields : Fields Decoder (String × Option String × List Dependency × List Dependency ×
    Option String × Option String × Option String × Option String × List String × List String ×
    Unit) :=
  .field "language" .text .required <|
  .field "packageManager" (.optional .text) (.optional none) <|
  .field "dependencies" (.list Dependency.decode) .required <|
  .field "devDependencies" (.list Dependency.decode) .required <|
  .field "testingFramework" (.optional .text) (.optional none) <|
  .field "bundler" (.optional .text) (.optional none) <|
  .field "linter" (.optional .text) (.optional none) <|
  .field "formatter" (.optional .text) (.optional none) <|
  .field "frameworks" (.list .text) .required <|
  .field "buildTools" (.list .text) .required .done

/-- Read the technology of a project. -/
def decode : Decoder TechStack := fun v => do
  let (language, packageManager, dependencies, devDependencies, testingFramework, bundler, linter,
    formatter, frameworks, buildTools, ()) ← fields.record "struct TechStack" v
  return ⟨language, packageManager, dependencies, devDependencies, testingFramework, bundler,
    linter, formatter, frameworks, buildTools⟩

end TechStack

end Gazetteer
