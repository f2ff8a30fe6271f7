import Gazetteer.Record.Export
import Gazetteer.Registry.Symbols

/-!
# The export registry and the import graph

The exported names of a repository by file, listed by line, name and kind, each once; and the modules each
file imports, each once and in order.
-/

namespace Gazetteer

set_option autoImplicit false

open Json

/-- An exported name within its file. -/
structure ExportEntry where
  name : String
  kind : ExportKind
  line : Nat
  deriving Repr, DecidableEq

namespace ExportEntry

/-- An entry as JSON. -/
def encode (e : ExportEntry) : Json :=
  .record [("name", .string e.name), ("kind", .string e.kind.name), ("line", .nat e.line)]

/-- The fields of an entry. -/
def fields : Fields Decoder (String × ExportKind × Nat × Unit) :=
  .field "name" .text .required <|
  .field "kind" ExportKind.decode .required <|
  .field "line" .word .required .done

/-- Read an entry. -/
def decode : Decoder ExportEntry := fun v => do
  let (name, kind, line, ()) ← fields.record "struct ExportEntry" v
  return ⟨name, kind, line⟩

/-- By line, then by name, then by kind. -/
def atMost (a b : ExportEntry) : Bool :=
  a.line < b.line || (a.line = b.line &&
    (a.name < b.name || (a.name = b.name && a.kind.rank ≤ b.kind.rank)))

end ExportEntry

/-- The exported names of a repository by file. -/
structure ExportRegistry where
  totalExports : Nat
  files : SortedMap String (List ExportEntry)
  deriving Repr, DecidableEq

namespace ExportRegistry

/-- The registry of some exports. -/
def ofExports (exports : List Export) : ExportRegistry :=
  let files := (groupByFile Export.file exports).map fun _ group =>
    dedupBy (fun a b : ExportEntry => a = b)
      ((group.map fun e => ⟨e.name, e.kind, e.line⟩ : List ExportEntry).mergeSort
        ExportEntry.atMost)
  ⟨groupCount files, files⟩

/-- Name and line of every export, under its file. -/
def keyIndex (r : ExportRegistry) : KeyIndex :=
  r.files.map fun _ entries => SortedSet.ofList (entries.map fun e => s!"{e.name}@{e.line}")

/-- A registry as JSON. -/
def encode (r : ExportRegistry) : Json :=
  .record [("totalExports", .nat r.totalExports), ("files", encodeGroups ExportEntry.encode r.files)]

/-- The fields of a registry. -/
def fields : Fields Decoder (Nat × SortedMap String (List ExportEntry) × Unit) :=
  .field "totalExports" .count .required <|
  .field "files" (.mapping (.list ExportEntry.decode)) .required .done

/-- Read a registry. -/
def decode : Decoder ExportRegistry := fun v => do
  let (totalExports, files, ()) ← fields.record "struct ExportRegistry" v
  return ⟨totalExports, files⟩

end ExportRegistry

/-- The modules that the files of a repository import. -/
structure ImportGraph where
  totalEdges : Nat
  files : SortedMap String (List String)
  deriving Repr, DecidableEq

namespace ImportGraph

/-- The graph of some imports. -/
def ofImports (imports : List Import) : ImportGraph :=
  let files := (groupByFile Import.file imports).map fun _ group =>
    (SortedSet.ofList (group.map (·.specifier))).toList
  ⟨groupCount files, files⟩

/-- The modules each file imports. -/
def keyIndex (g : ImportGraph) : KeyIndex := g.files.map fun _ specifiers => .ofList specifiers

/-- A graph as JSON. -/
def encode (g : ImportGraph) : Json :=
  .record [("totalEdges", .nat g.totalEdges), ("files", encodeGroups Json.string g.files)]

/-- The fields of a graph. -/
def fields : Fields Decoder (Nat × SortedMap String (List String) × Unit) :=
  .field "totalEdges" .count .required <|
  .field "files" (.mapping (.list .text)) .required .done

/-- Read a graph. -/
def decode : Decoder ImportGraph := fun v => do
  let (totalEdges, files, ()) ← fields.record "struct ImportGraph" v
  return ⟨totalEdges, files⟩

end ImportGraph

end Gazetteer
