import Gazetteer.Registry.Content
import Gazetteer.Proofs.Json.Record

/-!
# What the six manifests hold, written and read back

Whatever is read from the JSON form of the content of a manifest is that content, and the form of content that is read
is plain (`Content.faithful`): each record's decoder is faithful to its encoder because those of its fields are.  It is
read whenever the words of the decoders hold its numbers (`Content.returns`).
-/

namespace Gazetteer

set_option autoImplicit false

open Json

variable {n : Nat}

/-! ## Names -/

theorem SymbolKind.faithful : Faithful n (fun k : SymbolKind => .string k.name) SymbolKind.decode :=
  faithful_choice fun a => by cases a <;> decide

theorem SymbolKind.returns (k : SymbolKind) : Returns (fun k : SymbolKind => .string k.name) SymbolKind.decode k := by
  cases k <;> rfl

theorem ExportKind.faithful : Faithful n (fun k : ExportKind => .string k.name) ExportKind.decode :=
  faithful_choice fun a => by cases a <;> decide

theorem ExportKind.returns (k : ExportKind) : Returns (fun k : ExportKind => .string k.name) ExportKind.decode k := by
  cases k <;> rfl

theorem Category.faithful : Faithful n (fun c : Category => .string c.name) Category.decode :=
  faithful_choice fun a => by cases a <;> decide

theorem Category.returns (c : Category) : Returns (fun c : Category => .string c.name) Category.decode c := by
  cases c <;> rfl

/-! ## Records -/

namespace ExportEntry

def form : Form encode decode fields where
  title := "struct ExportEntry"
  split e := (e.name, e.kind, e.line, ())
  make t := ⟨t.1, t.2.1, t.2.2.1⟩
  members e := [("name", .string e.name), ("kind", .string e.kind.name), ("line", .nat e.line)]
  encoded _ := rfl
  decoded _ := rfl
  whole _ := rfl
  distinct := by decide

theorem faithful : Faithful (n + 1) encode decode :=
  form.faithful fun e => .field (faithful_text e.name) <| .field (ExportKind.faithful e.kind) <|
    .field (faithful_word e.line) .done

theorem returns {e : ExportEntry} (line : e.line < UInt32.size) : Returns encode decode e :=
  form.returns <| .field (returns_text e.name) <| .field e.kind.returns <| .field (returns_word line) .done

end ExportEntry

namespace PublicName

def form : Form encode decode fields where
  title := "struct ApiExport"
  split e := (e.file, e.name, e.kind, ())
  make t := ⟨t.1, t.2.1, t.2.2.1⟩
  members e := [("file", .string e.file), ("name", .string e.name), ("kind", .string e.kind.name)]
  encoded _ := rfl
  decoded _ := rfl
  whole _ := rfl
  distinct := by decide

theorem faithful : Faithful (n + 1) encode decode :=
  form.faithful fun e => .field (faithful_text e.file) <| .field (faithful_text e.name) <|
    .field (ExportKind.faithful e.kind) .done

theorem returns (e : PublicName) : Returns encode decode e :=
  form.returns <| .field (returns_text e.file) <| .field (returns_text e.name) <| .field e.kind.returns .done

end PublicName

namespace Dependency

def form : Form encode decode fields where
  title := "struct DependencyRef"
  split d := (d.name, d.version, d.source, ())
  make t := ⟨t.1, t.2.1, t.2.2.1⟩
  members d := [("name", .string d.name), ("version", .string d.version), ("source", .string d.source)]
  encoded _ := rfl
  decoded _ := rfl
  whole _ := rfl
  distinct := by decide

theorem faithful : Faithful (n + 1) encode decode :=
  form.faithful fun d => .field (faithful_text d.name) <| .field (faithful_text d.version) <|
    .field (faithful_text d.source) .done

theorem returns (d : Dependency) : Returns encode decode d :=
  form.returns <| .field (returns_text d.name) <| .field (returns_text d.version) <|
    .field (returns_text d.source) .done

end Dependency

namespace Finding

def form : Form encode decode fields where
  title := "struct PatternFinding"
  split f := (f.category, f.description, ())
  make t := ⟨t.1, t.2.1⟩
  members f := [("category", .string f.category.name), ("description", .string f.description)]
  encoded _ := rfl
  decoded _ := rfl
  whole _ := rfl
  distinct := by decide

theorem faithful : Faithful (n + 1) encode decode :=
  form.faithful fun f => .field (Category.faithful f.category) <| .field (faithful_text f.description) .done

theorem returns (f : Finding) : Returns encode decode f :=
  form.returns <| .field f.category.returns <| .field (returns_text f.description) .done

end Finding

/-- A text or `null`. -/
theorem TechStack.faithful_encodeOptional : Faithful n TechStack.encodeOptional (.optional .text) := by
  intro s s' read
  cases s with
  | none =>
    cases read
    exact ⟨rfl, plain_null⟩
  | some s =>
    cases read
    exact ⟨rfl, plain_string s⟩

theorem TechStack.returns_encodeOptional (s : Option String) : Returns encodeOptional (.optional .text) s := by
  cases s <;> rfl

namespace Parameter

/-- A parameter without a type leaves its member out. -/
def form : Form encode decode fields where
  title := "struct Parameter"
  split p := (p.name, p.typeText, p.isOptional, ())
  make t := ⟨t.1, t.2.1, t.2.2.1⟩
  members p := [("name", .string p.name)] ++
    (match p.typeText with | some t => [("typeText", .string t)] | none => []) ++ [("optional", .bool p.isOptional)]
  encoded _ := rfl
  decoded _ := rfl
  whole _ := rfl
  distinct := by decide

theorem faithful : Faithful (n + 1) encode decode := by
  refine form.faithful ?_
  rintro ⟨name, typeText, isOptional⟩
  cases typeText with
  | none => exact .field (faithful_text name) <| .absent <| .field (faithful_flag isOptional) .done
  | some t =>
    exact .field (faithful_text name) <| .field (TechStack.faithful_encodeOptional (some t)) <|
      .field (faithful_flag isOptional) .done

theorem returns (p : Parameter) : Returns encode decode p := by
  obtain ⟨name, typeText, isOptional⟩ := p
  refine form.returns ?_
  cases typeText with
  | none => exact .field (returns_text name) <| .absent <| .field (returns_flag isOptional) .done
  | some t =>
    exact .field (returns_text name) <| .field (TechStack.returns_encodeOptional (some t)) <|
      .field (returns_flag isOptional) .done

end Parameter

namespace Symbol

/-- A symbol without a return type leaves its member out. -/
def form : Form encode decode fields where
  title := "struct SymbolRecord"
  split s := (s.name, s.qualifiedName, s.kind, s.file, s.line, s.signature, s.isAsync, s.isExported, s.parameters,
    s.returnType, ())
  make t := ⟨t.1, t.2.1, t.2.2.1, t.2.2.2.1, t.2.2.2.2.1, t.2.2.2.2.2.1, t.2.2.2.2.2.2.1, t.2.2.2.2.2.2.2.1,
    t.2.2.2.2.2.2.2.2.1, t.2.2.2.2.2.2.2.2.2.1⟩
  members s := [("name", .string s.name), ("qualifiedName", .string s.qualifiedName), ("kind", .string s.kind.name),
    ("filePath", .string s.file), ("startLine", .nat s.line), ("signatureText", .string s.signature),
    ("isAsync", .bool s.isAsync), ("isExported", .bool s.isExported),
    ("parameters", .array (s.parameters.map (·.encode)))] ++
    (match s.returnType with | some t => [("returnTypeText", .string t)] | none => [])
  encoded s := by
    unfold Symbol.encode
    rfl
  decoded _ := rfl
  whole _ := rfl
  distinct := by decide

theorem faithful : Faithful (n + 3) encode decode := by
  refine form.faithful fun s => ?_
  refine .field (faithful_text s.name) <| .field (faithful_text s.qualifiedName) <|
    .field (SymbolKind.faithful s.kind) <| .field (faithful_text s.file) <| .field (faithful_word s.line) <|
    .field (faithful_text s.signature) <| .field (faithful_flag s.isAsync) <| .field (faithful_flag s.isExported) <|
    .field (faithful_list Parameter.faithful s.parameters) ?_
  cases s.returnType with
  | none => exact .absent .done
  | some t => exact .field (TechStack.faithful_encodeOptional (some t)) .done

theorem returns {s : Symbol} (line : s.line < UInt32.size) : Returns encode decode s := by
  refine form.returns ?_
  refine .field (returns_text s.name) <| .field (returns_text s.qualifiedName) <| .field s.kind.returns <|
    .field (returns_text s.file) <| .field (returns_word line) <| .field (returns_text s.signature) <|
    .field (returns_flag s.isAsync) <| .field (returns_flag s.isExported) <|
    .field (returns_list fun p _ => p.returns) ?_
  cases s.returnType with
  | none => exact .absent .done
  | some t => exact .field (TechStack.returns_encodeOptional (some t)) .done

end Symbol

/-! ## Manifests -/

namespace SymbolRegistry

def form : Form encode decode fields where
  title := "struct SymbolRegistry"
  split r := (r.totalFiles, r.totalSymbols, r.files, ())
  make t := ⟨t.1, t.2.1, t.2.2.1⟩
  members r := [("totalFiles", .nat r.totalFiles), ("totalSymbols", .nat r.totalSymbols),
    ("files", encodeGroups Symbol.encode r.files)]
  encoded _ := rfl
  decoded _ := rfl
  whole _ := rfl
  distinct := by decide

theorem faithful : Faithful (n + 6) encode decode :=
  form.faithful fun r => .field (faithful_count r.totalFiles) <| .field (faithful_count r.totalSymbols) <|
    .field (faithful_mapping (faithful_list Symbol.faithful) r.files) .done

theorem returns {r : SymbolRegistry} (files : r.totalFiles < UInt64.size) (symbols : r.totalSymbols < UInt64.size)
    (lines : ∀ e ∈ r.files.entries, ∀ s ∈ e.2, s.line < UInt32.size) : Returns encode decode r :=
  form.returns <| .field (returns_count files) <| .field (returns_count symbols) <|
    .field (returns_mapping fun e listed => returns_list fun s member => Symbol.returns (lines e listed s member)) .done

end SymbolRegistry

namespace ExportRegistry

def form : Form encode decode fields where
  title := "struct ExportRegistry"
  split r := (r.totalExports, r.files, ())
  make t := ⟨t.1, t.2.1⟩
  members r := [("totalExports", .nat r.totalExports), ("files", encodeGroups ExportEntry.encode r.files)]
  encoded _ := rfl
  decoded _ := rfl
  whole _ := rfl
  distinct := by decide

theorem faithful : Faithful (n + 4) encode decode :=
  form.faithful fun r => .field (faithful_count r.totalExports) <|
    .field (faithful_mapping (faithful_list ExportEntry.faithful) r.files) .done

theorem returns {r : ExportRegistry} (total : r.totalExports < UInt64.size)
    (lines : ∀ e ∈ r.files.entries, ∀ entry ∈ e.2, entry.line < UInt32.size) : Returns encode decode r :=
  form.returns <| .field (returns_count total) <|
    .field (returns_mapping fun e listed => returns_list fun entry member =>
      ExportEntry.returns (lines e listed entry member)) .done

end ExportRegistry

namespace ImportGraph

def form : Form encode decode fields where
  title := "struct ImportGraph"
  split g := (g.totalEdges, g.files, ())
  make t := ⟨t.1, t.2.1⟩
  members g := [("totalEdges", .nat g.totalEdges), ("files", encodeGroups Json.string g.files)]
  encoded _ := rfl
  decoded _ := rfl
  whole _ := rfl
  distinct := by decide

theorem faithful : Faithful (n + 3) encode decode :=
  form.faithful fun g => .field (faithful_count g.totalEdges) <|
    .field (faithful_mapping (faithful_list faithful_text) g.files) .done

theorem returns {g : ImportGraph} (total : g.totalEdges < UInt64.size) : Returns encode decode g :=
  form.returns <| .field (returns_count total) <|
    .field (returns_mapping fun _ _ => returns_list fun s _ => returns_text s) .done

end ImportGraph

namespace TechStack

def form : Form encode decode fields where
  title := "struct TechStack"
  split t := (t.language, t.packageManager, t.dependencies, t.devDependencies, t.testingFramework, t.bundler, t.linter,
    t.formatter, t.frameworks, t.buildTools, ())
  make t := ⟨t.1, t.2.1, t.2.2.1, t.2.2.2.1, t.2.2.2.2.1, t.2.2.2.2.2.1, t.2.2.2.2.2.2.1, t.2.2.2.2.2.2.2.1,
    t.2.2.2.2.2.2.2.2.1, t.2.2.2.2.2.2.2.2.2.1⟩
  members t := [("language", .string t.language), ("packageManager", encodeOptional t.packageManager),
    ("dependencies", .array (t.dependencies.map (·.encode))),
    ("devDependencies", .array (t.devDependencies.map (·.encode))),
    ("testingFramework", encodeOptional t.testingFramework), ("bundler", encodeOptional t.bundler),
    ("linter", encodeOptional t.linter), ("formatter", encodeOptional t.formatter),
    ("frameworks", .strings t.frameworks), ("buildTools", .strings t.buildTools)]
  encoded t := by rw [TechStack.encode]
  decoded _ := rfl
  whole _ := rfl
  distinct := by decide

theorem faithful : Faithful (n + 3) encode decode :=
  form.faithful fun t => .field (faithful_text t.language) <| .field (faithful_encodeOptional t.packageManager) <|
    .field (faithful_list Dependency.faithful t.dependencies) <|
    .field (faithful_list Dependency.faithful t.devDependencies) <|
    .field (faithful_encodeOptional t.testingFramework) <| .field (faithful_encodeOptional t.bundler) <|
    .field (faithful_encodeOptional t.linter) <| .field (faithful_encodeOptional t.formatter) <|
    .field (faithful_list faithful_text t.frameworks) <| .field (faithful_list faithful_text t.buildTools) .done

theorem returns (t : TechStack) : Returns encode decode t :=
  form.returns <| .field (returns_text t.language) <| .field (returns_encodeOptional t.packageManager) <|
    .field (returns_list fun d _ => d.returns) <| .field (returns_list fun d _ => d.returns) <|
    .field (returns_encodeOptional t.testingFramework) <| .field (returns_encodeOptional t.bundler) <|
    .field (returns_encodeOptional t.linter) <| .field (returns_encodeOptional t.formatter) <|
    .field (returns_list fun s _ => returns_text s) <| .field (returns_list fun s _ => returns_text s) .done

end TechStack

namespace PatternReport

def form : Form encode decode fields where
  title := "struct PatternReport"
  split r := (r.rulesetVersion, r.findings, ())
  make t := ⟨t.1, t.2.1⟩
  members r := [("rulesetVersion", .nat r.rulesetVersion), ("findings", .array (r.findings.map (·.encode)))]
  encoded _ := rfl
  decoded _ := rfl
  whole _ := rfl
  distinct := by decide

theorem faithful : Faithful (n + 3) encode decode :=
  form.faithful fun r => .field (faithful_word r.rulesetVersion) <|
    .field (faithful_list Finding.faithful r.findings) .done

theorem returns {r : PatternReport} (version : r.rulesetVersion < UInt32.size) : Returns encode decode r :=
  form.returns <| .field (returns_word version) <| .field (returns_list fun f _ => f.returns) .done

end PatternReport

namespace Surface

def form : Form encode decode fields where
  title := "struct ApiSurface"
  split s := (s.entryPoints, s.publicNames, s.commands, s.scripts, ())
  make t := ⟨t.1, t.2.1, t.2.2.1, t.2.2.2.1⟩
  members s := [("entryPoints", .strings s.entryPoints), ("publicExports", .array (s.publicNames.map (·.encode))),
    ("cliCommands", .strings s.commands), ("scripts", .object (s.scripts.map fun _ text => Json.string text).entries)]
  encoded _ := rfl
  decoded _ := rfl
  whole _ := rfl
  distinct := by decide

theorem faithful : Faithful (n + 3) encode decode :=
  form.faithful fun s => .field (faithful_list faithful_text s.entryPoints) <|
    .field (faithful_list PublicName.faithful s.publicNames) <| .field (faithful_list faithful_text s.commands) <|
    .field (faithful_mapping faithful_text s.scripts) .done

theorem returns (s : Surface) : Returns encode decode s :=
  form.returns <| .field (returns_list fun e _ => returns_text e) <| .field (returns_list fun e _ => e.returns) <|
    .field (returns_list fun c _ => returns_text c) <| .field (returns_mapping fun e _ => returns_text e.2) .done

end Surface

/-- Whatever is read from the form of some content is that content. -/
theorem Content.faithful (content read : Content)
    (decoded : Content.decode content.kind content.encode = .ok read) :
    read = content ∧ content.encode.Plain (n + 6) := by
  cases content with
  | symbols r =>
    change (SymbolRegistry.decode r.encode).map Content.symbols = .ok read at decoded
    obtain ⟨r', decoding, rfl⟩ := Outcome.map_eq_ok.1 decoded
    obtain ⟨same, plain⟩ := SymbolRegistry.faithful r r' decoding
    exact ⟨congrArg Content.symbols same, plain⟩
  | exports r =>
    change (ExportRegistry.decode r.encode).map Content.exports = .ok read at decoded
    obtain ⟨r', decoding, rfl⟩ := Outcome.map_eq_ok.1 decoded
    obtain ⟨same, plain⟩ := ExportRegistry.faithful r r' decoding
    exact ⟨congrArg Content.exports same, plain⟩
  | imports g =>
    change (ImportGraph.decode g.encode).map Content.imports = .ok read at decoded
    obtain ⟨g', decoding, rfl⟩ := Outcome.map_eq_ok.1 decoded
    obtain ⟨same, plain⟩ := ImportGraph.faithful g g' decoding
    exact ⟨congrArg Content.imports same, plain⟩
  | techStack t =>
    change (TechStack.decode t.encode).map Content.techStack = .ok read at decoded
    obtain ⟨t', decoding, rfl⟩ := Outcome.map_eq_ok.1 decoded
    obtain ⟨same, plain⟩ := TechStack.faithful t t' decoding
    exact ⟨congrArg Content.techStack same, plain⟩
  | patterns r =>
    change (PatternReport.decode r.encode).map Content.patterns = .ok read at decoded
    obtain ⟨r', decoding, rfl⟩ := Outcome.map_eq_ok.1 decoded
    obtain ⟨same, plain⟩ := PatternReport.faithful r r' decoding
    exact ⟨congrArg Content.patterns same, plain⟩
  | apiSurface s =>
    change (Surface.decode s.encode).map Content.apiSurface = .ok read at decoded
    obtain ⟨s', decoding, rfl⟩ := Outcome.map_eq_ok.1 decoded
    obtain ⟨same, plain⟩ := Surface.faithful s s' decoding
    exact ⟨congrArg Content.apiSurface same, plain⟩

/-- The words in which the content of a manifest is read hold its numbers. -/
def Content.Fits : Content → Prop
  | .symbols r => r.totalFiles < UInt64.size ∧ r.totalSymbols < UInt64.size ∧
      ∀ e ∈ r.files.entries, ∀ s ∈ e.2, s.line < UInt32.size
  | .exports r => r.totalExports < UInt64.size ∧ ∀ e ∈ r.files.entries, ∀ entry ∈ e.2, entry.line < UInt32.size
  | .imports g => g.totalEdges < UInt64.size
  | .patterns r => r.rulesetVersion < UInt32.size
  | .techStack _ => True
  | .apiSurface _ => True

/-- Content that fits is read from its form. -/
theorem Content.returns {content : Content} (fits : content.Fits) :
    Content.decode content.kind content.encode = .ok content := by
  cases content with
  | symbols r => exact Outcome.map_eq_ok.2 ⟨r, SymbolRegistry.returns fits.1 fits.2.1 fits.2.2, rfl⟩
  | exports r => exact Outcome.map_eq_ok.2 ⟨r, ExportRegistry.returns fits.1 fits.2, rfl⟩
  | imports g => exact Outcome.map_eq_ok.2 ⟨g, ImportGraph.returns fits, rfl⟩
  | techStack t => exact Outcome.map_eq_ok.2 ⟨t, t.returns, rfl⟩
  | patterns r => exact Outcome.map_eq_ok.2 ⟨r, PatternReport.returns fits, rfl⟩
  | apiSurface s => exact Outcome.map_eq_ok.2 ⟨s, s.returns, rfl⟩

end Gazetteer
