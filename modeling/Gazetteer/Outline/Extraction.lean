import Gazetteer.Files.Path
import Gazetteer.Outline.Signals
import Gazetteer.Outline.Statement
import Gazetteer.Project.ImportRules
import Gazetteer.Registry.Symbols
import Gazetteer.Syntax.Parse
import Gazetteer.Syntax.Place

/-!
# What a source file yields

`extract` reads a source file and gives its symbols, exports, imports of project modules and signals.  The kind
of an exported name is that of its declaration; a name that only an import binds is exported again.
-/

namespace Gazetteer

set_option autoImplicit false

open Syntax (Dialect Tree)
open Outline (Binding Contribution Pending)

/-- Why a source file yields nothing. -/
inductive ExtractError
  | unreadable (message : String)
  | notUtf8
  | unsupported
  | syntaxAt (line : Nat)
  deriving Repr, DecidableEq

/-- How the error reads. -/
def ExtractError.message : ExtractError → String
  | .unreadable message => s!"IO error: {message}"
  | .notUtf8 => "file is not valid UTF-8"
  | .unsupported => "unsupported file type"
  | .syntaxAt line => s!"syntax error at line {line}"

/-- What a source file yields. -/
structure Extraction where
  file : String
  symbols : List Symbol
  exports : List Export
  imports : List String
  signals : Signals
  deriving Repr, DecidableEq

/-- The dialect of a file name's extension, whatever the case of its letters. -/
def dialectOf? (file : String) : Option Dialect :=
  match (Path.mk file).extension?.map Text.lower with
  | some e =>
      if ["ts", "mts", "cts"].contains e then some .typeScript
      else if e = "tsx" then some .tsx
      else if ["js", "jsx", "mjs", "cjs"].contains e then some .javaScript
      else none
  | none => none

namespace Outline

/-- The last declaration of a name. -/
def local? (c : Contribution) (name : String) : Option Binding :=
  c.locals.reverse.find? fun b => b.name = name

/-- The export that a pending one turns out to be. -/
def settle (c : Contribution) (p : Pending) : Binding :=
  let (kind, line) := match local? c p.localName with
    | some b => (b.kind, b.line)
    | none =>
        if c.imported.contains p.localName then (.reExport, p.line) else (.variable, p.line)
  ⟨p.exported, if p.exported = "default" then .default else kind, line⟩

/-- The local names that are exported. -/
def exportedNames (c : Contribution) : List String :=
  c.exportedLocals ++
    (c.pending.filter fun p => (local? c p.localName).isSome).map (·.localName)

/-- By line, then by name, then by kind. -/
def bindingAtMost (a b : Binding) : Bool :=
  a.line < b.line || (a.line = b.line &&
    (a.name < b.name || (a.name = b.name && a.kind.rank ≤ b.kind.rank)))

/-- The symbols of a file, by line and qualified name. -/
def symbols (file : String) (c : Contribution) : List Symbol :=
  let exported := exportedNames c
  (c.declarations.map fun d => d.symbol file (exported.contains d.owner)).mergeSort
    SymbolRegistry.atMost

/-- The exports of a file, by line, name and kind, each once. -/
def exports (file : String) (c : Contribution) : List Export :=
  let bindings := (c.exports ++ c.pending.map (settle c)).mergeSort bindingAtMost
  (dedupBy (fun a b : Binding => a = b) bindings).map fun b => ⟨file, b.name, b.kind, b.line⟩

/-- The tree itself, if nothing in it is an error. -/
def checked (root : Tree) : Except ExtractError Tree :=
  if root.label.flagged then .error (.syntaxAt (root.faultLine?.getD 1)) else .ok root

/-- What a tree yields. -/
def extractTree (file : String) (rules : ImportRules) (root : Tree) : Extraction :=
  let c := programContribution root
  { file
    symbols := symbols file c
    exports := exports file c
    imports := (SortedSet.ofList
      ((c.specifiers ++ calledModules root).filter rules.isInternal)).toList
    signals := signals root }

end Outline

/-- What a source text yields in a given dialect. -/
def extractText (file : String) (d : Dialect) (rules : ImportRules) (source : String) :
    Except ExtractError Extraction :=
  match Outline.checked (Syntax.parse d source) with
  | .ok root => .ok (Outline.extractTree file rules root)
  | .error e => .error e

/-- What a source file yields; its name tells the dialect. -/
def extract (file : String) (rules : ImportRules) (source : String) :
    Except ExtractError Extraction :=
  match dialectOf? file with
  | some d => extractText file d rules source
  | none => .error .unsupported

end Gazetteer
