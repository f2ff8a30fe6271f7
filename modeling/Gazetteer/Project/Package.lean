import Gazetteer.Json.Reader

/-!
# The package manifest

What is read of a `package.json`; every field may be missing, and other fields are skipped.
-/

namespace Gazetteer

set_option autoImplicit false

open Json

/-- A package and what it declares. -/
structure Package where
  name : Option String := none
  main : Option String := none
  module : Option String := none
  types : Option String := none
  typings : Option String := none
  exports : Option Json := none
  bin : Option Json := none
  scripts : SortedMap String String := ∅
  dependencies : SortedMap String Json := ∅
  devDependencies : SortedMap String Json := ∅
  peerDependencies : SortedMap String Json := ∅
  packageManager : Option String := none
  deriving Repr

namespace Package

/-- The name of the manifest file. -/
def fileName : String := "package.json"

/-- A text that may be missing. -/
def optionalText : Reader (Option String) := .optional .text

/-- A value that may be missing, below `depth` levels. -/
def optionalValue : Reader (Option Json) := .optional (.value (depthLimit - 1))

/-- Dependencies with what is said of their versions. -/
def declared : Reader (SortedMap String Json) := .mapping (.value (depthLimit - 2))

/-- The fields of a package manifest. -/
def fields : Fields Reader (Option String × Option String × Option String × Option String ×
    Option String × Option Json × Option Json × SortedMap String String × SortedMap String Json ×
    SortedMap String Json × SortedMap String Json × Option String × Unit) :=
  .field "name" optionalText (.default none) <|
  .field "main" optionalText (.default none) <|
  .field "module" optionalText (.default none) <|
  .field "types" optionalText (.default none) <|
  .field "typings" optionalText (.default none) <|
  .field "exports" optionalValue (.default none) <|
  .field "bin" optionalValue (.default none) <|
  .field "scripts" (.mapping .text) (.default ∅) <|
  .field "dependencies" declared (.default ∅) <|
  .field "devDependencies" declared (.default ∅) <|
  .field "peerDependencies" declared (.default ∅) <|
  .field "packageManager" optionalText (.default none) .done

/-- Read a package manifest. -/
def reader : Reader Package := do
  let (name, main, module, types, typings, exports, bin, scripts, dependencies, devDependencies,
    peerDependencies, packageManager, ()) ← fields.read "struct PackageJson"
  return ⟨name, main, module, types, typings, exports, bin, scripts, dependencies,
    devDependencies, peerDependencies, packageManager⟩

/-- Read a package manifest from its text. -/
def parse (text : String) : Except String Package := reader.run text

end Package

end Gazetteer
