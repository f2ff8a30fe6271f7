import Gazetteer.Manifest.Markdown
import Gazetteer.Proofs.Outline.Visibility
import Gazetteer.Proofs.Registry.Canonical
import Gazetteer.Proofs.Text.Pieces

/-!
# Rows of the symbol table

A symbol is shown as a row of cells, which is to be one line in which six bars divide five cells.  The signature is
escaped and has its blanks collapsed, so it brings no such bar with it (`Markdown.barsFrom_escape`); the name is written
as it stands in the source, and so is the target in front of a function that is bound to a name.  Hence the row is right
exactly if these two bring neither bars nor ends of lines (`Outline.Declaration.isRow_symbol`).  The view of a registry
consists of these rows, below the heading of each file (`Markdown.lines_symbols`, `Markdown.rows_of_extraction`).
-/

namespace Gazetteer

set_option autoImplicit false

namespace Markdown

/-! ## Bars -/

/-- How many bars of a text have no backslash before them; `escaped` if one stands before the text. -/
def barsFrom (escaped : Bool) : List Char → Nat
  | [] => 0
  | c :: cs => (if c = '|' ∧ escaped = false then 1 else 0) + barsFrom (c = '\\') cs

/-- The bars of a text that divide cells. -/
def bars (cs : List Char) : Nat := barsFrom false cs

/-- A character inside a table cell. -/
def escapeChar (c : Char) : List Char := if c = '|' then ['\\', '|'] else if c = '\x60' then ['\x27'] else [c]

variable {cs : List Char} {s : Symbol}

/-- Behind a character that is neither bar nor backslash, bars are counted afresh. -/
theorem barsFrom_append_cons {c : Char} (plain : c ≠ '|' ∧ c ≠ '\\') (escaped : Bool) (before after : List Char) :
    barsFrom escaped (before ++ c :: after) = barsFrom escaped before + bars after := by
  induction before generalizing escaped with
  | nil => simp [barsFrom, bars, plain]
  | cons b before ih => rw [List.cons_append, barsFrom, barsFrom, ih, Nat.add_assoc]

theorem bars_of_notMem (free : '|' ∉ cs) : bars cs = 0 := by
  have any (escaped : Bool) : barsFrom escaped cs = 0 := by
    induction cs generalizing escaped with
    | nil => rfl
    | cons c cs ih =>
      have other : c ≠ '|' := fun bar => free (bar ▸ List.mem_cons_self)
      rw [barsFrom, if_neg fun bar => other bar.1, ih (List.not_mem_of_not_mem_cons free)]
  exact any false

theorem toList_escapeCell (text : String) : (escapeCell text).toList = text.toList.flatMap escapeChar :=
  String.toList_ofList

/-- An escaped text has no bar that divides cells, whatever stands before it. -/
theorem barsFrom_escape (cs : List Char) (escaped : Bool) : barsFrom escaped (cs.flatMap escapeChar) = 0 := by
  induction cs generalizing escaped with
  | nil => rfl
  | cons c cs ih =>
    rw [List.flatMap_cons, escapeChar]
    split
    · simp [barsFrom, ih]
    · split
      · simp [barsFrom, ih]
      · rename_i other _
        simp [barsFrom, other, ih]

theorem newline_mem_escape : '\n' ∈ cs.flatMap escapeChar ↔ '\n' ∈ cs := by
  rw [List.mem_flatMap]
  constructor
  · rintro ⟨c, member, inner⟩
    unfold escapeChar at inner
    split at inner
    · simp at inner
    · split at inner
      · simp at inner
      · rwa [List.mem_singleton.1 inner]
  · intro member
    exact ⟨_, member, by decide⟩

/-! ## Rows -/

/-- The cells of a symbol. -/
def cells (s : Symbol) : List (List Char) :=
  [Nat.toDigits 10 s.line, s.kind.name.toList, '\x60' :: s.qualifiedName.toList ++ ['\x60'],
    (if s.isExported then "yes" else "").toList,
    '\x60' :: (signatureLine s).toList.flatMap escapeChar ++ ['\x60']]

/-- A row of cells. -/
def row (cells : List (List Char)) : List Char := '|' :: cells.flatMap fun cell => ' ' :: cell ++ [' ', '|']

theorem toList_symbolRow (s : Symbol) : (symbolRow s).toList = row (cells s) ++ ['\n'] := by
  simp [symbolRow, toString, toList_escapeCell, row, cells]

theorem bars_row_nil : bars (row []) = 1 := rfl

theorem bars_row_cons (cell : List Char) (cells : List (List Char)) :
    bars (row (cell :: cells)) = 1 + bars cell + bars (row cells) := by
  have space (before after : List Char) : bars (before ++ ' ' :: after) = bars before + bars after :=
    barsFrom_append_cons (by decide) false before after
  have spelled : row (cell :: cells) = ['|'] ++ ' ' :: (cell ++ ' ' :: row cells) := by simp [row]
  have one : bars ['|'] = 1 := rfl
  rw [spelled, space, space, one, Nat.add_assoc]

theorem bars_quoted (cs : List Char) : bars ('\x60' :: cs ++ ['\x60']) = bars cs := by
  have tick (before after : List Char) : bars (before ++ '\x60' :: after) = bars before + bars after :=
    barsFrom_append_cons (by decide) false before after
  have empty : bars [] = 0 := rfl
  rw [tick, ← List.nil_append ('\x60' :: cs), tick, empty, Nat.zero_add, Nat.add_zero]

/-- Six bars divide the cells of a symbol, besides those in its name. -/
theorem bars_cells (s : Symbol) : bars (row (cells s)) = 6 + bars s.qualifiedName.toList := by
  have line : bars (Nat.toDigits 10 s.line) = 0 := bars_of_notMem fun member => by
    cases isDigit_toDigits _ _ member
  have kind : bars s.kind.name.toList = 0 := by cases s.kind <;> decide
  have exported : bars (if s.isExported then "yes" else "").toList = 0 := by cases s.isExported <;> decide
  have signature : bars ((signatureLine s).toList.flatMap escapeChar) = 0 := barsFrom_escape _ false
  simp only [cells, bars_row_cons, bars_row_nil, line, kind, bars_quoted, exported, signature]
  omega

theorem newline_mem_row {cells : List (List Char)} : '\n' ∈ row cells ↔ ∃ cell ∈ cells, '\n' ∈ cell := by
  simp [row]

theorem newline_mem_cells (s : Symbol) :
    '\n' ∈ row (cells s) ↔ '\n' ∈ s.qualifiedName.toList ∨ '\n' ∈ (signatureLine s).toList := by
  have line : '\n' ∉ Nat.toDigits 10 s.line := fun member => by cases isDigit_toDigits _ _ member
  have kind : '\n' ∉ s.kind.name.toList := by cases s.kind <;> decide
  have exported : '\n' ∉ (if s.isExported then "yes" else "").toList := by cases s.isExported <;> decide
  have quoted (cs : List Char) : '\n' ∈ '\x60' :: cs ++ ['\x60'] ↔ '\n' ∈ cs := by simp
  simp only [newline_mem_row, cells, List.exists_mem_cons_iff, List.not_mem_nil, false_and, exists_false, line, kind,
    exported, quoted, newline_mem_escape, false_or, or_false]

/-! ## Lines -/

/-- The lines of a text. -/
def lines (text : String) : List (List Char) := Text.splitBy (· = '\n') text.toList

/-- The lines of a row. -/
def rowLines (s : Symbol) : List (List Char) := Text.splitBy (· = '\n') (row (cells s))

/-- A symbol is shown in one line of five cells. -/
def IsRow (s : Symbol) : Prop := ∃ line, rowLines s = [line] ∧ bars line = 6

theorem isRow_iff : IsRow s ↔
    bars s.qualifiedName.toList = 0 ∧ '\n' ∉ s.qualifiedName.toList ∧ '\n' ∉ (signatureLine s).toList := by
  have single {line : List Char} : rowLines s = [line] ↔ '\n' ∉ row (cells s) ∧ row (cells s) = line := by
    rw [rowLines, Text.splitBy_eq_singleton_iff]
    simp [List.forall_mem_ne']
  constructor
  · rintro ⟨line, alone, six⟩
    obtain ⟨whole, rfl⟩ := single.1 alone
    rw [newline_mem_cells, not_or] at whole
    rw [bars_cells] at six
    exact ⟨by omega, whole⟩
  · rintro ⟨none, whole⟩
    refine ⟨_, single.2 ⟨by rwa [newline_mem_cells, not_or], rfl⟩, ?_⟩
    rw [bars_cells, none]

theorem newline_mem_signatureLine (returns : ∀ t ∈ s.returnType, '\n' ∉ t.toList) :
    '\n' ∈ (signatureLine s).toList ↔ '\n' ∈ s.signature.toList := by
  unfold signatureLine
  split
  · rename_i t declared
    have none := returns t declared
    split
    · rfl
    · simp [toString, none]
  · rfl

end Markdown

/-! ## Declarations -/

namespace Outline

open Syntax (Tree)

theorem newline_notMem_collapse (s : String) : '\n' ∉ (Text.collapse s).toList := by
  have joined (pieces : List String) (each : ∀ piece ∈ pieces, '\n' ∉ piece.toList) :
      '\n' ∉ (String.intercalate " " pieces).toList := by
    induction pieces with
    | nil => simp
    | cons piece pieces ih =>
      obtain ⟨head, tail⟩ := List.forall_mem_cons.1 each
      cases pieces with
      | nil => simpa using head
      | cons next pieces =>
        rw [String.intercalate_cons_cons]
        simpa [head] using ih tail
  refine joined _ fun piece member inner => ?_
  obtain ⟨word, listed, rfl⟩ := List.mem_map.1 member
  rw [String.toList_ofList] at inner
  have filled := Text.whole_of_mem_splitBy (List.mem_filter.1 listed).1 '\n' inner
  exact absurd filled (by decide)

theorem newline_notMem_headText (t : Tree) : '\n' ∉ (headText t).toList := by
  unfold headText
  split <;> exact newline_notMem_collapse _

theorem newline_notMem_callableHead (t : Tree) : '\n' ∉ (Declaration.callableHead t).toList := by
  have cut (cs : List Char) : Declaration.callableHead.cut cs ⊆ cs := by
    fun_induction Declaration.callableHead.cut cs with
    | case1 cs ih => exact fun c member => List.mem_cons_of_mem _ (List.mem_cons_of_mem _ (ih member))
    | case2 cs => exact List.Subset.refl cs
  intro member
  rw [Declaration.callableHead, String.toList_ofList, Text.trimEnd, List.reverse_reverse, List.mem_reverse] at member
  have inner := cut _ ((List.dropWhile_suffix Text.isBlank).subset member)
  exact newline_notMem_headText t (List.mem_reverse.1 inner)

theorem newline_notMem_returnType {t : Tree} {type : String} (declared : type ∈ returnType? t) :
    '\n' ∉ type.toList := by
  obtain ⟨found, -⟩ := Option.filter_eq_some_iff.1 declared
  obtain ⟨clause, -, rfl⟩ := Option.map_eq_some_iff.1 found
  exact newline_notMem_collapse _

namespace Declaration

/-- The name under which a declaration is shown. -/
def title : Declaration → String
  | .method _ _ container name => s!"{container}.{name}"
  | .function _ name | .classType _ name | .interface _ name | .variableFunction _ _ name _ => name

/-- What a function that is bound to a name is assigned to. -/
def target? : Declaration → Option String
  | .variableFunction _ _ _ target => some target
  | _ => none

/-- The name of a declaration has no bar that divides cells, and neither it nor the target has the end of a line. -/
structure Plain (d : Declaration) : Prop where
  cells : Markdown.bars d.title.toList = 0
  single : '\n' ∉ d.title.toList
  target : ∀ target ∈ d.target?, '\n' ∉ target.toList

variable {file : String} {isExported : Bool} {d : Declaration}

theorem qualifiedName_symbol : (d.symbol file isExported).qualifiedName = d.title := by
  cases d with
  | method node held container name => cases held <;> rfl
  | _ => rfl

theorem newline_notMem_returnType_symbol :
    ∀ t ∈ (d.symbol file isExported).returnType, '\n' ∉ t.toList := by
  cases d with
  | method node held container name =>
    cases held <;> exact fun t declared => newline_notMem_returnType declared
  | classType node name | interface node name => exact nofun
  | _ => exact fun t declared => newline_notMem_returnType declared

theorem newline_mem_assigned (target : String) (callable : Tree) :
    '\n' ∈ s!"{target} = {callableHead callable}".toList ↔ '\n' ∈ target.toList := by
  simp [toString, newline_notMem_callableHead]

/-- The end of a line stands in a signature only if it does in the name or in the target. -/
theorem single_signature (single : '\n' ∉ d.title.toList) :
    '\n' ∉ (d.symbol file isExported).signature.toList ↔ ∀ target ∈ d.target?, '\n' ∉ target.toList := by
  cases d with
  | method node held container name =>
    cases held with
    | none => exact iff_of_true (newline_notMem_headText node) nofun
    | some held =>
      have named : '\n' ∉ name.toList := by
        simp only [title, toString, String.toList_append] at single
        exact fun member => single (List.mem_append_right _ member)
      refine iff_of_true ?_ nofun
      exact (newline_mem_assigned name held).not.2 named
  | variableFunction binding callable name target =>
    simp only [target?, Option.mem_some_iff, forall_eq']
    exact (newline_mem_assigned target callable).not
  | function node name | classType node name | interface node name =>
    exact iff_of_true (newline_notMem_headText node) nofun

theorem isRow_symbol : Markdown.IsRow (d.symbol file isExported) ↔ d.Plain := by
  rw [Markdown.isRow_iff, Markdown.newline_mem_signatureLine newline_notMem_returnType_symbol, qualifiedName_symbol]
  constructor
  · rintro ⟨cells, single, signature⟩
    exact ⟨cells, single, (single_signature single).1 signature⟩
  · rintro ⟨cells, single, target⟩
    exact ⟨cells, single, (single_signature single).2 target⟩

end Declaration

namespace Sample

/-- A method whose name is quoted and has a bar. -/
def barredMethod : Tree := declaration .methodDefinition 1 "\x27x|y\x27" []

/-- A class that has this method alone. -/
def barred : Tree :=
  program
    [declaration .classDeclaration 0 "A" [.node { kind := .other, role := some .body, row := 0 } [barredMethod]]]

end Sample

end Outline

/-! ## The view -/

namespace Markdown

/-- The lines above the tables. -/
def opening (document : Document) (r : SymbolRegistry) : List (List Char) :=
  lines (header "Symbol Registry" document ++ s!"{r.totalSymbols} symbols in {r.totalFiles} files.\n")

/-- What stands above the rows of a file, without the end of its last line. -/
def heading (file : String) : String :=
  s!"## `{file}`\n\n| Line | Kind | Name | Exported | Signature |\n" ++ "|-----:|------|------|:--------:|-----------|"

/-- The lines of the table of a file. -/
def tableLines (file : String) (group : List Symbol) : List (List Char) :=
  lines (heading file) ++ group.flatMap rowLines ++ [[]]

theorem fileTable_eq (file : String) (group : List Symbol) :
    fileTable file group = heading file ++ "\n" ++ String.join (group.map symbolRow) ++ "\n" := by
  have rule : "|-----:|------|------|:--------:|-----------|\n" =
      "|-----:|------|------|:--------:|-----------|" ++ "\n" := by decide +kernel
  rw [fileTable, heading, rule]
  simp only [String.append_assoc]

theorem lines_fileTable (file : String) (group : List Symbol) (rest : List Char) :
    Text.splitBy (· = '\n') ((fileTable file group).toList ++ rest) =
      tableLines file group ++ Text.splitBy (· = '\n') rest := by
  have rows : (String.join (group.map symbolRow)).toList =
      (group.map fun s => row (cells s)).flatMap (· ++ ['\n']) := by
    rw [String.toList_join, List.flatMap_map, List.flatMap_map]
    exact List.flatMap_congr fun s _ => toList_symbolRow s
  have spelled : (fileTable file group).toList ++ rest = (heading file).toList ++
      '\n' :: ((group.map fun s => row (cells s)).flatMap (· ++ ['\n']) ++ '\n' :: rest) := by
    simp [fileTable_eq, rows]
  rw [spelled, Text.splitBy_append_cons (decide_eq_true rfl), Text.splitBy_closed (decide_eq_true rfl),
    ← List.nil_append ('\n' :: rest), Text.splitBy_append_cons (decide_eq_true rfl), List.flatMap_map, tableLines]
  simp only [List.append_assoc]
  rfl

theorem lines_symbols (document : Document) (r : SymbolRegistry) :
    lines (symbols document r) =
      opening document r ++ r.files.entries.flatMap (fun (file, group) => tableLines file group) ++
        lines (notes document) := by
  have tables (entries : List (String × List Symbol)) (rest : List Char) :
      Text.splitBy (· = '\n')
          ((entries.flatMap fun (file, group) => (fileTable file group).toList) ++ rest) =
        entries.flatMap (fun (file, group) => tableLines file group) ++ Text.splitBy (· = '\n') rest := by
    induction entries with
    | nil => rfl
    | cons entry entries ih =>
      rw [List.flatMap_cons, List.append_assoc, lines_fileTable, ih, List.flatMap_cons, List.append_assoc]
  have spelled : (symbols document r).toList =
      (header "Symbol Registry" document ++ s!"{r.totalSymbols} symbols in {r.totalFiles} files.\n").toList ++
        '\n' :: ((r.files.entries.flatMap fun (file, group) => (fileTable file group).toList) ++
          (notes document).toList) := by
    simp [symbols, toString, String.toList_join, List.flatMap_map]
  rw [lines, spelled, Text.splitBy_append_cons (decide_eq_true rfl), tables, ← List.append_assoc]
  rfl

open Outline (Declaration extractTree programContribution)

/-- How a registry shows what the declarations of some sources are. -/
structure Tabled (document : Document) (sources : List (String × Syntax.Tree)) (r : SymbolRegistry) : Prop where
  /-- Below the heading of each file are the lines of its symbols, in the order of the registry. -/
  view : lines (symbols document r) =
    opening document r ++ r.files.entries.flatMap (fun (file, group) => tableLines file group) ++ lines (notes document)
  /-- What stands there for a symbol is one line of five cells exactly if its declaration is plain. -/
  rows : ∀ file group, (file, group) ∈ r.files.entries → ∀ s ∈ group, ∃ root d,
    (file, root) ∈ sources ∧ d ∈ (programContribution root).declarations ∧ d.symbol file s.isExported = s ∧
      (IsRow s ↔ d.Plain)

/-- The registry of the symbols that sources declare. -/
def registryOf (rules : ImportRules) (sources : List (String × Syntax.Tree)) : SymbolRegistry :=
  .ofSymbols (sources.flatMap fun (file, root) => (extractTree file rules root).symbols)

/-- The view has a row for each symbol of the sources, and only a declaration that is not plain breaks its row. -/
theorem rows_of_extraction (document : Document) (rules : ImportRules) (sources : List (String × Syntax.Tree)) :
    Tabled document sources (registryOf rules sources) where
  view := lines_symbols document _
  rows := by
    intro file group listed s member
    obtain ⟨rfl, given⟩ := SymbolRegistry.file_of_mem (SortedMap.mem_entries_iff.1 listed) member
    obtain ⟨⟨source, root⟩, read, extracted⟩ := List.mem_flatMap.1 given
    obtain ⟨d, declares, rfl⟩ := Outline.mem_symbols.1 extracted
    rw [Declaration.file_symbol, Declaration.isExported_symbol]
    exact ⟨root, d, read, declares, rfl, Declaration.isRow_symbol⟩

/-- The row of the method has seven bars. -/
theorem rows_of_extraction_barred :
    Tabled ⟨⟨default, 1, 2, true⟩, .empty, .empty, []⟩ [("a.ts", Outline.Sample.barred)]
        (registryOf ⟨none, []⟩ [("a.ts", Outline.Sample.barred)]) ∧
      .method Outline.Sample.barredMethod none "A" "\x27x|y\x27" ∈
        (programContribution Outline.Sample.barred).declarations ∧
      bars (row (cells (Declaration.symbol "a.ts" false
        (.method Outline.Sample.barredMethod none "A" "\x27x|y\x27")))) = 7 := by
  refine ⟨rows_of_extraction _ _ _, .tail _ (.head _), ?_⟩
  rw [bars_cells]
  decide +kernel

end Markdown

end Gazetteer
