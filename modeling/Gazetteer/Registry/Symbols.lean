import Gazetteer.Record.Symbol
import Gazetteer.Registry.KeyIndex

/-!
# The symbol registry

The symbols of a repository by file. Within a file they are listed by line, then by qualified name, and a
symbol that shares its key with the one before it is left out.
-/

namespace Gazetteer

set_option autoImplicit false

open Json

/-- Keep the first of neighbouring elements that are the same. -/
def dedupBy {α : Type} (same : α → α → Bool) : List α → List α
  | [] => []
  | [a] => [a]
  | a :: b :: rest =>
      if same a b then dedupBy same (a :: rest) else a :: dedupBy same (b :: rest)
  termination_by xs => xs.length

/-- Records by the file they belong to, in the order given. -/
def groupByFile {α : Type} (file : α → String) (xs : List α) : SortedMap String (List α) :=
  (xs.foldl (fun (groups : SortedMap String (List α)) x =>
    groups.alter (file x) fun group => x :: group.getD []) ∅).map fun _ group => group.reverse

/-- A number of things in a word of 64 bits. -/
def wordCount (n : Nat) : Nat := n % UInt64.size

/-- Number of records in all groups. -/
def groupCount {α : Type} (groups : SortedMap String (List α)) : Nat :=
  wordCount (sumOf (groups.values.map (·.length)))

/-- An object of arrays. -/
def encodeGroups {α : Type} (encode : α → Json) (groups : SortedMap String (List α)) : Json :=
  .object (groups.map fun _ group => Json.array (group.map encode)).entries

/-- The symbols of a repository by file. -/
structure SymbolRegistry where
  totalFiles : Nat
  totalSymbols : Nat
  files : SortedMap String (List Symbol)
  deriving Repr, DecidableEq

namespace SymbolRegistry

/-- By line, then by qualified name. -/
def atMost (s t : Symbol) : Bool :=
  s.line < t.line || (s.line = t.line && s.qualifiedName ≤ t.qualifiedName)

/-- The registry of some symbols. -/
def ofSymbols (symbols : List Symbol) : SymbolRegistry :=
  let files := (groupByFile Symbol.file symbols).map fun _ group =>
    dedupBy Symbol.sameKey (group.mergeSort atMost)
  ⟨wordCount files.size, groupCount files, files⟩

/-- The key of every symbol, under its file. -/
def keyIndex (r : SymbolRegistry) : KeyIndex :=
  r.files.map fun _ symbols => SortedSet.ofList (symbols.map (·.key))

/-- A registry as JSON. -/
def encode (r : SymbolRegistry) : Json :=
  .record [("totalFiles", .nat r.totalFiles), ("totalSymbols", .nat r.totalSymbols),
    ("files", encodeGroups Symbol.encode r.files)]

/-- The fields of a registry. -/
def fields : Fields Decoder (Nat × Nat × SortedMap String (List Symbol) × Unit) :=
  .field "totalFiles" .count .required <|
  .field "totalSymbols" .count .required <|
  .field "files" (.mapping (.list Symbol.decode)) .required .done

/-- Read a registry. -/
def decode : Decoder SymbolRegistry := fun v => do
  let (totalFiles, totalSymbols, files, ()) ← fields.record "struct SymbolRegistry" v
  return ⟨totalFiles, totalSymbols, files⟩

end SymbolRegistry

end Gazetteer
