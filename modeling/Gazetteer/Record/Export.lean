import Gazetteer.Json.Decode

/-!
# Exports and imports

An export is a name that a file makes visible, with the kind of its declaration and its line; an import is a
module that a file of the project names.
-/

namespace Gazetteer

set_option autoImplicit false

open Json

/-- How an exported name was declared. -/
inductive ExportKind
  | function
  | classType
  | interface
  | type
  | enum
  | variable
  | default
  | reExport
  deriving Repr, DecidableEq

namespace ExportKind

/-- The name of a kind. -/
def name : ExportKind → String
  | .function => "function"
  | .classType => "class"
  | .interface => "interface"
  | .type => "type"
  | .enum => "enum"
  | .variable => "variable"
  | .default => "default"
  | .reExport => "re-export"

/-- All kinds, in their order. -/
def all : List ExportKind :=
  [.function, .classType, .interface, .type, .enum, .variable, .default, .reExport]

/-- The place of a kind in the order of kinds. -/
def rank : ExportKind → Nat
  | .function => 0
  | .classType => 1
  | .interface => 2
  | .type => 3
  | .enum => 4
  | .variable => 5
  | .default => 6
  | .reExport => 7

/-- Read the name of a kind. -/
def decode : Decoder ExportKind := Decoder.choice (all.map fun k => (k.name, k))

end ExportKind

/-- A name that a file makes visible. -/
structure Export where
  file : String
  name : String
  kind : ExportKind
  /-- Counted from one. -/
  line : Nat
  deriving Repr, DecidableEq

namespace Export

/-- An export as JSON. -/
def encode (e : Export) : Json :=
  .record [("filePath", .string e.file), ("exportedName", .string e.name),
    ("declarationKind", .string e.kind.name), ("startLine", .nat e.line)]

/-- The fields of an export. -/
def fields : Fields Decoder (String × String × ExportKind × Nat × Unit) :=
  .field "filePath" .text .required <|
  .field "exportedName" .text .required <|
  .field "declarationKind" ExportKind.decode .required <|
  .field "startLine" .word .required .done

/-- Read an export. -/
def decode : Decoder Export := fun v => do
  let (file, name, kind, line, ()) ← fields.record "struct ExportEdge" v
  return ⟨file, name, kind, line⟩

end Export

/-- A module of the project that a file names. -/
structure Import where
  file : String
  specifier : String
  deriving Repr, DecidableEq

namespace Import

/-- The fields of an import. -/
def fields : Fields Decoder (String × String × Unit) :=
  .field "fromFile" .text .required <|
  .field "moduleSpecifier" .text .required .done

/-- Read an import. -/
def decode : Decoder Import := fun v => do
  let (file, specifier, ()) ← fields.record "struct ImportEdge" v
  return ⟨file, specifier⟩

end Import

end Gazetteer
