import Gazetteer.Record.Export

/-!
# What a project offers

The surface of a project is its entry files, the names these files export, its commands and its scripts.
-/

namespace Gazetteer

set_option autoImplicit false

open Json

/-- A name that can be reached from an entry file. -/
structure PublicName where
  file : String
  name : String
  kind : ExportKind
  deriving Repr, DecidableEq

namespace PublicName

/-- A public name as JSON. -/
def encode (e : PublicName) : Json :=
  .record [("file", .string e.file), ("name", .string e.name), ("kind", .string e.kind.name)]

/-- The fields of a public name. -/
def fields : Fields Decoder (String × String × ExportKind × Unit) :=
  .field "file" .text .required <|
  .field "name" .text .required <|
  .field "kind" ExportKind.decode .required .done

/-- Read a public name. -/
def decode : Decoder PublicName := fun v => do
  let (file, name, kind, ()) ← fields.record "struct ApiExport" v
  return ⟨file, name, kind⟩

/-- By file, then by name, then by kind. -/
def atMost (a b : PublicName) : Bool :=
  a.file < b.file || (a.file = b.file &&
    (a.name < b.name || (a.name = b.name && a.kind.rank ≤ b.kind.rank)))

end PublicName

/-- What a project offers to those who use it. -/
structure Surface where
  entryPoints : List String
  publicNames : List PublicName
  commands : List String
  scripts : SortedMap String String
  deriving Repr, DecidableEq

namespace Surface

/-- A surface as JSON. -/
def encode (s : Surface) : Json :=
  .record
    [("entryPoints", .strings s.entryPoints),
      ("publicExports", .array (s.publicNames.map (·.encode))),
      ("cliCommands", .strings s.commands),
      ("scripts", .object (s.scripts.map fun _ text => Json.string text).entries)]

/-- The fields of a surface. -/
def fields : Fields Decoder (List String × List PublicName × List String × SortedMap String String × Unit) :=
  .field "entryPoints" (.list .text) .required <|
  .field "publicExports" (.list PublicName.decode) .required <|
  .field "cliCommands" (.list .text) .required <|
  .field "scripts" (.mapping .text) .required .done

/-- Read a surface. -/
def decode : Decoder Surface := fun v => do
  let (entryPoints, publicNames, commands, scripts, ()) ← fields.record "struct ApiSurface" v
  return ⟨entryPoints, publicNames, commands, scripts⟩

end Surface

end Gazetteer
