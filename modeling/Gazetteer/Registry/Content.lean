import Gazetteer.Record.Finding
import Gazetteer.Record.Surface
import Gazetteer.Record.TechStack
import Gazetteer.Registry.Exports
import Gazetteer.Text.Blank

/-!
# What the six manifests hold

Each kind of manifest documents one view of a repository. `Content` is such a view, `Content.keyIndex` the
items it documents, and `Content.encode` and `Content.decode` its JSON form.
-/

namespace Gazetteer

set_option autoImplicit false

open Json

/-- The kinds of manifest. -/
inductive Kind
  | symbols
  | exports
  | imports
  | techStack
  | patterns
  | apiSurface
  deriving Repr, DecidableEq

namespace Kind

/-- All kinds, in the order in which they are refreshed. -/
def all : List Kind := [.symbols, .exports, .imports, .techStack, .patterns, .apiSurface]

/-- The name of a kind, which is also the stem of its file. -/
def slug : Kind → String
  | .symbols => "symbols"
  | .exports => "exports"
  | .imports => "imports"
  | .techStack => "tech-stack"
  | .patterns => "patterns"
  | .apiSurface => "api-surface"

/-- The file of a kind. -/
def fileName (k : Kind) : String := k.slug ++ ".json"

/-- The file of the Markdown view, for the kinds that have one. -/
def markdownName? : Kind → Option String
  | .symbols => some "symbols.md"
  | .patterns => some "patterns.md"
  | _ => none

/-- The kind of a name. Blanks around it and the case of its letters do not count, and an underscore is a
hyphen. -/
def parse (text : String) : Except String Kind :=
  let name := String.ofList ((Text.lower (Text.strip text)).toList.map fun c =>
    if c = '_' then '-' else c)
  match all.find? fun k => k.slug = name with
  | some k => .ok k
  | none =>
      .error (s!"unknown manifest '{text}' (expected one of: " ++
        String.intercalate ", " (all.map slug) ++ ")")

end Kind

/-- The conventions found in a repository. -/
structure PatternReport where
  rulesetVersion : Nat
  findings : List Finding
  deriving Repr, DecidableEq

namespace PatternReport

/-- The report of some findings, each once and in order. -/
def of (rulesetVersion : Nat) (findings : List Finding) : PatternReport :=
  ⟨rulesetVersion, dedupBy (fun f g : Finding => f = g) (findings.mergeSort Finding.atMost)⟩

/-- Category and description of every finding. -/
def keyIndex (r : PatternReport) : KeyIndex :=
  SortedMap.empty.insert KeyIndex.repositoryScope
    (.ofList (r.findings.map fun f => s!"{f.category.name}:{f.description}"))

/-- A report as JSON. -/
def encode (r : PatternReport) : Json :=
  .record [("rulesetVersion", .nat r.rulesetVersion),
    ("findings", .array (r.findings.map (·.encode)))]

/-- The fields of a report. -/
def fields : Fields Decoder (Nat × List Finding × Unit) :=
  .field "rulesetVersion" .word .required <|
  .field "findings" (.list Finding.decode) .required .done

/-- Read a report. -/
def decode : Decoder PatternReport := fun v => do
  let (rulesetVersion, findings, ()) ← fields.record "struct PatternReport" v
  return ⟨rulesetVersion, findings⟩

end PatternReport

namespace TechStack

/-- The language and the tools belong to the repository, the dependencies to the files that declare them. -/
def keyIndex (t : TechStack) : KeyIndex :=
  let tools :=
    [("packageManager", t.packageManager), ("testingFramework", t.testingFramework),
      ("bundler", t.bundler), ("linter", t.linter), ("formatter", t.formatter)]
  let whole := s!"language:{t.language}" ::
    tools.filterMap fun (role, tool?) => tool?.map fun tool => s!"{role}:{tool}"
  let index : KeyIndex := SortedMap.empty.insert KeyIndex.repositoryScope (.ofList whole)
  let index := t.dependencies.foldl
    (fun index d => index.add d.source s!"dependency:{d.name}") index
  t.devDependencies.foldl (fun index d => index.add d.source s!"devDependency:{d.name}") index

end TechStack

namespace Surface

/-- Entry files and commands belong to the repository, exported names to their files. -/
def keyIndex (s : Surface) : KeyIndex :=
  let whole := s.entryPoints.map (fun e => s!"entry:{e}") ++
    s.commands.map fun c => s!"command:{c}"
  let index : KeyIndex := SortedMap.empty.insert KeyIndex.repositoryScope (.ofList whole)
  s.publicNames.foldl (fun index e => index.add e.file s!"export:{e.name}") index

end Surface

/-- What a manifest of one kind documents. -/
inductive Content
  | symbols (r : SymbolRegistry)
  | exports (r : ExportRegistry)
  | imports (g : ImportGraph)
  | techStack (t : TechStack)
  | patterns (r : PatternReport)
  | apiSurface (s : Surface)
  deriving Repr, DecidableEq

namespace Content

/-- The kind of manifest that holds the content. -/
def kind : Content → Kind
  | .symbols _ => .symbols
  | .exports _ => .exports
  | .imports _ => .imports
  | .techStack _ => .techStack
  | .patterns _ => .patterns
  | .apiSurface _ => .apiSurface

/-- Every item that the content documents, by file. -/
def keyIndex : Content → KeyIndex
  | .symbols r => r.keyIndex
  | .exports r => r.keyIndex
  | .imports g => g.keyIndex
  | .techStack t => t.keyIndex
  | .patterns r => r.keyIndex
  | .apiSurface s => s.keyIndex

/-- The content as JSON. -/
def encode : Content → Json
  | .symbols r => r.encode
  | .exports r => r.encode
  | .imports g => g.encode
  | .techStack t => t.encode
  | .patterns r => r.encode
  | .apiSurface s => s.encode

/-- Read the content of a manifest of a given kind. -/
def decode : Kind → Decoder Content
  | .symbols => fun v => (SymbolRegistry.decode v).map .symbols
  | .exports => fun v => (ExportRegistry.decode v).map .exports
  | .imports => fun v => (ImportGraph.decode v).map .imports
  | .techStack => fun v => (TechStack.decode v).map .techStack
  | .patterns => fun v => (PatternReport.decode v).map .patterns
  | .apiSurface => fun v => (Surface.decode v).map .apiSurface

end Content

end Gazetteer
