import Gazetteer.Convention.Detect
import Gazetteer.Manifest.Document
import Gazetteer.Project.Interface
import Gazetteer.Project.Scan
import Gazetteer.Project.Technology

/-!
# Surveys

A survey is everything that one look at a repository yields: what was extracted from each source file, what the
dependency manifests declare, and from both the content of every manifest.  A folder that cannot be listed is an
issue, a file that cannot be extracted is a complaint, and neither holds anything else up.
-/

namespace Gazetteer

set_option autoImplicit false

/-- What is extracted from one file. -/
def SourceFile.extract (f : SourceFile) (rules : ImportRules) : Except ExtractError Extraction :=
  if (dialectOf? f.relative).isNone then .error .unsupported
  else
    match Text.Utf8.decode f.bytes with
    | .error _ => .error .notUtf8
    | .ok source => Gazetteer.extract f.relative rules source

/-- What was extracted from some files, in their order. -/
structure Extracts where
  files : List Extraction
  complaints : List Complaint
  deriving Repr, DecidableEq

namespace Extracts

/-- Extract files; the order in which they come does not count. -/
def ofFiles (rules : ImportRules) (files : List SourceFile) : Extracts :=
  let results := (files.map fun f => (f.relative, f.extract rules)).mergeSort fun a b => a.1 ≤ b.1
  { files := results.filterMap fun (_, r) => r.toOption
    complaints := results.filterMap fun (file, r) =>
      match r with
      | .ok _ => none
      | .error e => some ⟨file, e.message⟩ }

/-- The signals of all files together. -/
def signals (e : Extracts) : Signals := (e.files.map (·.signals)).foldl (· + ·) {}

/-- The symbols of all files. -/
def symbols (e : Extracts) : List Symbol := e.files.flatMap (·.symbols)

/-- The exports of all files. -/
def exports (e : Extracts) : List Export := e.files.flatMap (·.exports)

/-- The imports of all files. -/
def imports (e : Extracts) : List Import :=
  e.files.flatMap fun f => f.imports.map fun specifier => ⟨f.file, specifier⟩

end Extracts

/-- What is known about a repository. -/
structure Survey where
  /-- The source files, by their path relative to the root. -/
  files : List String
  extracts : Extracts
  declared : Declared
  /-- What could not be looked into on the way to the files. -/
  scanIssues : List ScanIssue := []
  deriving Repr

namespace Survey

/-- The survey of some source files. -/
def ofFiles (rules : ImportRules) (declared : Declared) (files : List SourceFile) : Survey :=
  { files := files.map (·.relative), extracts := .ofFiles rules files, declared }

/-- Look at a repository. -/
def take (c : ScanContext) (t : FileTree) : Survey :=
  { ofFiles c.imports (.read t c.rootPath) (c.scan t) with scanIssues := c.scanIssues t }

/-- The conventions that the repository follows. -/
def patterns (s : Survey) : PatternReport :=
  .of rulesetVersion (detectConventions s.extracts.signals s.extracts.symbols s.declared.names)

/-- The content of the manifest of a kind. -/
def content (s : Survey) : Kind → Content
  | .symbols => .symbols (.ofSymbols s.extracts.symbols)
  | .exports => .exports (.ofExports s.extracts.exports)
  | .imports => .imports (.ofImports s.extracts.imports)
  | .techStack => .techStack (s.declared.techStack s.files)
  | .patterns => .patterns s.patterns
  | .apiSurface => .apiSurface (.make s.declared.package s.files s.extracts.exports)

/-- The items that the repository has for a kind of manifest. -/
def keyIndex (s : Survey) (k : Kind) : KeyIndex := (s.content k).keyIndex

/-- The number of symbols. -/
def symbolCount (s : Survey) : Nat := (SymbolRegistry.ofSymbols s.extracts.symbols).totalSymbols

end Survey

end Gazetteer
