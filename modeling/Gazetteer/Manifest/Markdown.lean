import Gazetteer.Manifest.Document

/-!
# Markdown views of manifests

The symbol registry is shown as one table for each file and the findings as one list for each category, both
below the version of the manifest and above its notes.
-/

namespace Gazetteer.Markdown

set_option autoImplicit false

/-- Title and version. -/
def header (title : String) (d : Document) : String :=
  s!"# {title}\n\n_Generated by cartograph. Version {d.metadata.version}, updated " ++
    d.metadata.lastUpdated.shortText ++
    ". Edit `notes` or `_manual` in the JSON document, not this file._\n\n"

/-- The notes of a document, if they are a text. -/
def notes (d : Document) : String :=
  match d.manual.get? Namespace.notesKey with
  | some (.string text) =>
      "## Notes\n\n" ++ String.ofList (Text.trimEnd Text.isBlank text.toList) ++ "\n"
  | _ => ""

/-- The signature of a symbol, with its return type unless that occurs in it already. -/
def signatureLine (s : Symbol) : String :=
  match s.returnType with
  | some t =>
      if Text.occursIn t.toList s.signature.toList then s.signature else s!"{s.signature}: {t}"
  | none => s.signature

/-- A text inside a table cell. -/
def escapeCell (text : String) : String :=
  String.ofList (text.toList.flatMap fun c =>
    if c = '|' then ['\\', '|'] else if c = '\x60' then ['\x27'] else [c])

/-- The table row of a symbol. -/
def symbolRow (s : Symbol) : String :=
  s!"| {s.line} | {s.kind.name} | `{s.qualifiedName}` | " ++ (if s.isExported then "yes" else "") ++
    " | `" ++ escapeCell (signatureLine s) ++ "` |\n"

/-- The table of a file. -/
def fileTable (file : String) (symbols : List Symbol) : String :=
  s!"## `{file}`\n\n| Line | Kind | Name | Exported | Signature |\n" ++
    "|-----:|------|------|:--------:|-----------|\n" ++ String.join (symbols.map symbolRow) ++ "\n"

/-- The symbol registry of a document. -/
def symbols (d : Document) (r : SymbolRegistry) : String :=
  header "Symbol Registry" d ++ s!"{r.totalSymbols} symbols in {r.totalFiles} files.\n\n" ++
    String.join (r.files.entries.map fun (file, symbols) => fileTable file symbols) ++ notes d

/-- The findings of one category. -/
def categoryList (r : PatternReport) (c : Category) : String :=
  let findings := r.findings.filter fun f => f.category = c
  s!"## {c.title}\n\n" ++
    (if findings.isEmpty then "_None detected._\n"
      else String.join (findings.map fun f => s!"- {f.description}\n")) ++ "\n"

/-- The findings of a document. -/
def patterns (d : Document) (r : PatternReport) : String :=
  header "Detected Patterns" d ++ String.join (Category.all.map (categoryList r)) ++ notes d

/-- The view of a document, for the kinds that have one. -/
def render (kind : Kind) (d : Document) : Except ManifestError (Option String) :=
  match kind with
  | .symbols => do
      match ← d.auto.content .symbols with
      | .symbols r => return some (symbols d r)
      | _ => return none
  | .patterns => do
      match ← d.auto.content .patterns with
      | .patterns r => return some (patterns d r)
      | _ => return none
  | _ => return none

end Gazetteer.Markdown
