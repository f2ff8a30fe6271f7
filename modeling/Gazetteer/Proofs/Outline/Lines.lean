import Gazetteer.Proofs.Outline.Declared
import Gazetteer.Proofs.Outline.Forms
import Gazetteer.Proofs.Project.Extracts
import Gazetteer.Proofs.Registry.Groups

/-!
# Lines of symbols and exports

The line of a tree fits into a word, and whatever is taken from a file stands on the line of a tree.  So each form of a
statement contributes lines that fit (`Outline.Contributes.placed`), and so do whole files
(`Extracts.line_of_mem_symbols`, `Extracts.line_of_mem_exports`).
-/

namespace Gazetteer

set_option autoImplicit false

namespace Outline

open Syntax (Tree Kind Role)

/-- How many lines a word counts. -/
def lineLimit : Nat := UInt32.size

theorem line_lt (t : Tree) : t.line < lineLimit := Nat.mod_lt _ (by decide)

/-- All that a contribution names stands on a line that a word can hold. -/
structure Placed (c : Contribution) : Prop where
  locals : ∀ b ∈ c.locals, b.line < lineLimit
  exports : ∀ b ∈ c.exports, b.line < lineLimit
  pending : ∀ p ∈ c.pending, p.line < lineLimit

/-! ## Declarations -/

theorem Shapewise.line : Shapewise fun b _ => b.line < lineLimit where
  function t _ := line_lt t
  classType t _ := line_lt t
  interface t _ := line_lt t
  type t _ := line_lt t
  enum t _ := line_lt t
  variableFunction t _ _ _ := line_lt t
  data t _ := line_lt t

theorem line_of_mem_declared (t : Tree) (e : Binding × List Declaration) (member : e ∈ declared t) :
    e.1.line < lineLimit := Shapewise.line.declared t member

theorem placed_declarationContribution (t : Tree) : Placed (declarationContribution t) := by
  refine ⟨fun b member => ?_, nofun, nofun⟩
  obtain ⟨e, listed, rfl⟩ := List.mem_map.1 member
  exact line_of_mem_declared t e listed

/-! ## Exports -/

theorem kind_line_of_mem_reExports {line : Nat} {t : Tree} {b : Binding} (member : b ∈ reExports line t) :
    b.kind = .reExport ∧ b.line = line := by
  unfold reExports at member
  split at member
  · obtain ⟨e, -, rfl⟩ := List.mem_map.1 member
    exact ⟨rfl, rfl⟩
  · rw [List.mem_singleton.1 member]
    exact ⟨rfl, rfl⟩
  · cases member

/-- What is exported from another module is a re-export on the line of the statement. -/
theorem kind_line_of_mem_sourceContribution {t source : Tree} {b : Binding}
    (member : b ∈ (sourceContribution t source).exports) : b.kind = .reExport ∧ b.line = t.line := by
  unfold sourceContribution at member
  dsimp only at member
  split at member
  · obtain ⟨child, -, inner⟩ := List.mem_flatMap.1 member
    exact kind_line_of_mem_reExports inner
  · rw [List.mem_singleton.1 member]
    exact ⟨rfl, rfl⟩

theorem placed_sourceContribution (t source : Tree) : Placed (sourceContribution t source) := by
  refine ⟨nofun, fun b member => ?_, nofun⟩
  rw [(kind_line_of_mem_sourceContribution member).2]
  exact line_lt t

theorem placed_exportedDeclaration (isDefault : Bool) (t : Tree) : Placed (exportedDeclaration isDefault t) := by
  refine ⟨fun b member => ?_, fun b member => ?_, nofun⟩
  · rw [locals_exportedDeclaration] at member
    obtain ⟨e, listed, rfl⟩ := List.mem_map.1 member
    exact line_of_mem_declared t e listed
  · rw [exports_exportedDeclaration] at member
    obtain ⟨e, listed, rfl⟩ := List.mem_map.1 member
    split <;> exact line_of_mem_declared t e listed

/-! ## Files -/

theorem Hands.line_lt {t : Tree} {p : Pending} (hands : Hands t p) : p.line < lineLimit := by
  cases hands <;> exact Outline.line_lt _

/-- Whatever a statement contributes is placed. -/
theorem Contributes.placed {t : Tree} {c : Contribution} (form : Contributes t c) : Placed c := by
  have single (t : Tree) (name : String) (kind : ExportKind) : ∀ b ∈ [(⟨name, kind, t.line⟩ : Binding)],
      b.line < lineLimit := List.forall_mem_singleton.2 (line_lt t)
  cases form with
  | declares other => exact placed_declarationContribution t
  | imports statement => exact ⟨nofun, nofun, nofun⟩
  | passes statement named => exact placed_sourceContribution t _
  | exports exports => exact placed_exportedDeclaration _ _
  | hands hands => exact ⟨nofun, nofun, List.forall_mem_singleton.2 hands.line_lt⟩
  | names names => exact ⟨nofun, nofun, nofun⟩
  | whole whole other => exact ⟨nofun, single t _ _, nofun⟩
  | function provides callable => exact ⟨nofun, single _ _ _, nofun⟩
  | data provides data other => exact ⟨nofun, single _ _ _, nofun⟩
  | method method => exact ⟨nofun, single _ _ _, nofun⟩

theorem placed_programContribution (root : Tree) : Placed (programContribution root) where
  locals b member := by
    obtain ⟨t, -, c, form, inner⟩ := Additive.locals.mem_outline.1 member
    exact form.placed.locals b inner
  exports b member := by
    obtain ⟨t, -, c, form, inner⟩ := Additive.exports.mem_outline.1 member
    exact form.placed.exports b inner
  pending p member := by
    obtain ⟨t, -, c, form, inner⟩ := Additive.pending.mem_outline.1 member
    exact form.placed.pending p inner

/-- An export that was pending stands on the line of a declaration or on its own. -/
theorem line_settle {c : Contribution} (placed : Placed c) {p : Pending} (member : p ∈ c.pending) :
    (settle c p).line < lineLimit := by
  unfold settle
  dsimp only
  cases found : local? c p.localName with
  | some b => exact placed.locals b (List.mem_reverse.1 (List.mem_of_find?_eq_some found))
  | none =>
    dsimp only
    split
    · exact placed.pending p member
    · exact placed.pending p member

theorem line_symbol (file : String) (isExported : Bool) (d : Declaration) :
    (d.symbol file isExported).line < lineLimit := by
  cases d with
  | method node held container name => cases held <;> exact line_lt node
  | _ => exact line_lt _

end Outline

/-- All symbols and exports of a file stand on lines that a word can hold. -/
structure Extraction.Placed (x : Extraction) : Prop where
  symbols : ∀ s ∈ x.symbols, s.line < Outline.lineLimit
  exports : ∀ e ∈ x.exports, e.line < Outline.lineLimit

section Extract

variable {file : String} {rules : ImportRules} {x : Extraction}

theorem Outline.placed_extractTree (file : String) (rules : ImportRules) (root : Syntax.Tree) :
    (extractTree file rules root).Placed := by
  have placed := placed_programContribution root
  refine ⟨fun s member => ?_, fun e member => ?_⟩
  · obtain ⟨d, -, rfl⟩ := List.mem_map.1 (List.mem_mergeSort.1 member)
    exact line_symbol file _ d
  · obtain ⟨b, listed, rfl⟩ := List.mem_map.1 member
    obtain known | settled := List.mem_append.1 (List.mem_mergeSort.1 ((dedupBy_sublist _ _).subset listed))
    · exact placed.exports b known
    · obtain ⟨p, pending, rfl⟩ := List.mem_map.1 settled
      exact line_settle placed pending

theorem SourceFile.placed_of_extract {f : SourceFile} (done : f.extract rules = .ok x) : x.Placed := by
  obtain ⟨root, rfl⟩ := SourceFile.exists_tree_of_extract done
  exact Outline.placed_extractTree f.relative rules root

end Extract

namespace Extracts

variable {rules : ImportRules} {files : List SourceFile}

theorem placed_of_mem_files {x : Extraction} (member : x ∈ (ofFiles rules files).files) : x.Placed := by
  obtain ⟨f, -, done⟩ := mem_files.1 member
  exact SourceFile.placed_of_extract done

theorem line_of_mem_symbols : ∀ s ∈ (ofFiles rules files).symbols, s.line < Outline.lineLimit := by
  intro s member
  obtain ⟨x, listed, inner⟩ := List.mem_flatMap.1 member
  exact (placed_of_mem_files listed).symbols s inner

theorem line_of_mem_exports : ∀ e ∈ (ofFiles rules files).exports, e.line < Outline.lineLimit := by
  intro e member
  obtain ⟨x, listed, inner⟩ := List.mem_flatMap.1 member
  exact (placed_of_mem_files listed).exports e inner

end Extracts

end Gazetteer
