import Gazetteer.Proofs.Outline.Lines
import Gazetteer.Proofs.Outline.Visibility

/-!
# Symbols of exports

An export of a function, a class or an interface has an exported symbol on its line and of its kind, whether it is
exported where it is declared, in a clause, by default or by an assignment.  The one exception are methods of an object
that is assigned to `module.exports`: they are exported as functions and declare no symbol
(`matched_extractTree`).
-/

namespace Gazetteer

set_option autoImplicit false

open Syntax (Tree)

/-- An export has an exported symbol in its file, on its line and of its kind. -/
def Extraction.Backs (x : Extraction) (e : Export) : Prop :=
  ∃ s ∈ x.symbols, s.isExported = true ∧ s.file = e.file ∧ s.line = e.line ∧ s.kind ∈ e.kind.symbolKinds

namespace Outline

/-- The export of a method of an object that is assigned to `module.exports`. -/
def OfMethod (root : Tree) (e : Export) : Prop :=
  e.kind = .function ∧ ∃ t ∈ root.namedChildren, ∃ m, ExportsMethod t m e.name ∧ e.line = m.line

end Outline

/-- Exports of functions, classes and interfaces match the symbols. -/
structure Extraction.Matched (x : Extraction) (root : Tree) : Prop where
  /-- Only exports of methods lack a symbol, and they do so unless an exported function stands on the same line. -/
  unbacked : ∀ e ∈ x.exports, e.kind.symbolKinds ≠ [] →
    (¬ x.Backs e ↔ Outline.OfMethod root e ∧
      ∀ s ∈ x.symbols, s.isExported = true → s.line = e.line → s.kind ≠ .function ∧ s.kind ≠ .variableFunction)
  /-- Every method of such an object is exported. -/
  methods : ∀ e : Export, e.file = x.file → Outline.OfMethod root e → e ∈ x.exports

namespace Outline

variable {file : String} {rules : ImportRules} {root t : Tree} {b : Binding} {c : Contribution}

theorem exists_backs_of_declared (bound : b ∈ (declared t).map (·.1)) (kinds : b.kind.symbolKinds ≠ []) :
    ∃ d ∈ (declared t).flatMap (·.2), d.Backs b := by
  obtain ⟨⟨b, ds⟩, listed, rfl⟩ := List.mem_map.1 bound
  obtain ⟨d, inner, backs⟩ := (Shapewise.entry.declared t listed).backed kinds
  exact ⟨d, List.mem_flatMap.2 ⟨_, listed, inner⟩, backs⟩

/-- A name that is declared at top level has a declaration like what it is bound to. -/
theorem exists_backs_of_local (member : b ∈ (programContribution root).locals) (kinds : b.kind.symbolKinds ≠ []) :
    ∃ d ∈ (programContribution root).declarations, d.Backs b := by
  obtain ⟨t, statement, c, form, inner⟩ := Additive.locals.mem_outline.1 member
  have known : ∃ d ∈ c.declarations, d.Backs b := by
    cases form with
    | declares other => exact exists_backs_of_declared inner kinds
    | exports exports =>
      rw [locals_exportedDeclaration] at inner
      rw [declarations_exportedDeclaration]
      exact exists_backs_of_declared inner kinds
    | _ => cases inner
  obtain ⟨d, listed, backs⟩ := known
  exact ⟨d, Additive.declarations.mem_outline.2 ⟨t, statement, c, form, listed⟩, backs⟩

theorem backs_of_declaration {d : Declaration} (listed : d ∈ (programContribution root).declarations)
    (backs : d.Backs b) (exported : b.name ∈ exportedNames (programContribution root)) (name : String) :
    (extractTree file rules root).Backs ⟨file, name, b.kind, b.line⟩ := by
  refine ⟨_, mem_symbols.2 ⟨d, listed, rfl⟩, ?_, d.file_symbol file _, backs.line file _, backs.kind file _⟩
  rw [d.isExported_symbol, backs.owner, List.contains_iff_mem]
  exact exported

/-- What a statement exports itself has a symbol, or is the method of an object. -/
theorem backs_or_ofMethod_of_export (member : b ∈ (programContribution root).exports)
    (kinds : b.kind.symbolKinds ≠ []) :
    (extractTree file rules root).Backs ⟨file, b.name, b.kind, b.line⟩ ∨
      OfMethod root ⟨file, b.name, b.kind, b.line⟩ := by
  obtain ⟨t, statement, c, form, inner⟩ := Additive.exports.mem_outline.1 member
  have backed {d : Declaration} (listed : d ∈ c.declarations) (backs : d.Backs b)
      (exported : b.name ∈ c.exportedLocals) :
      (extractTree file rules root).Backs ⟨file, b.name, b.kind, b.line⟩ := by
    have own := Additive.exportedLocals.mem_outline.2 ⟨t, statement, c, form, exported⟩
    exact backs_of_declaration (Additive.declarations.mem_outline.2 ⟨t, statement, c, form, listed⟩) backs
      (mem_exportedNames.2 (.inl own)) b.name
  cases form with
  | passes statement named =>
    rw [(kind_line_of_mem_sourceContribution inner).1] at kinds
    exact absurd rfl kinds
  | exports exports =>
    rw [exports_exportedDeclaration] at inner
    obtain ⟨⟨b', ds⟩, bound, rfl⟩ := List.mem_map.1 inner
    cases keyword : t.hasKeyword "default" with
    | true =>
      rw [keyword] at kinds
      exact absurd rfl kinds
    | false =>
      rw [keyword] at kinds backed
      obtain ⟨d, listed, backs⟩ := exists_backs_of_declared (List.mem_map_of_mem bound) kinds
      refine .inl (backed ?_ backs ?_)
      · rwa [declarations_exportedDeclaration]
      · rw [exportedLocals_exportedDeclaration]
        exact List.mem_map_of_mem bound
  | whole whole other =>
    cases List.mem_singleton.1 inner
    exact absurd rfl kinds
  | function provides callable =>
    cases List.mem_singleton.1 inner
    exact .inl (backed (List.mem_singleton_self _) ⟨rfl, fun _ _ => rfl, fun _ _ => .tail _ (.head _)⟩
      (List.mem_singleton_self _))
  | data provides data other =>
    cases List.mem_singleton.1 inner
    exact absurd rfl kinds
  | method method =>
    cases List.mem_singleton.1 inner
    exact .inr ⟨rfl, t, statement, _, method, rfl⟩
  | _ => cases inner

/-- A local name that a statement exports has the symbol of its declaration. -/
theorem backs_of_pending {p : Pending} (member : p ∈ (programContribution root).pending)
    (kinds : (settle (programContribution root) p).kind.symbolKinds ≠ []) :
    (extractTree file rules root).Backs ⟨file, p.exported, (settle (programContribution root) p).kind,
      (settle (programContribution root) p).line⟩ := by
  unfold settle at kinds ⊢
  dsimp only at kinds ⊢
  by_cases default : p.exported = "default"
  · rw [if_pos default] at kinds
    exact absurd rfl kinds
  rw [if_neg default] at kinds ⊢
  cases found : local? (programContribution root) p.localName with
  | some b =>
    rw [found] at kinds
    have listed : b ∈ (programContribution root).locals := List.mem_reverse.1 (List.mem_of_find?_eq_some found)
    have same : b.name = p.localName := of_decide_eq_true (List.find?_some found :)
    obtain ⟨d, declares, backs⟩ := exists_backs_of_local listed kinds
    refine backs_of_declaration declares backs (mem_exportedNames.2 (.inr ⟨p, member, same.symm, ?_⟩)) p.exported
    rw [same, found]
    rfl
  | none =>
    rw [found] at kinds
    dsimp only at kinds
    split at kinds <;> exact absurd rfl kinds

theorem matched_extractTree (file : String) (rules : ImportRules) (root : Tree) :
    (extractTree file rules root).Matched root where
  unbacked e member kinds := by
    have known : (extractTree file rules root).Backs e ∨ OfMethod root e := by
      obtain ⟨b, listed, rfl⟩ := mem_exports.1 member
      obtain own | pending := List.mem_append.1 listed
      · exact backs_or_ofMethod_of_export own kinds
      · obtain ⟨p, inner, rfl⟩ := List.mem_map.1 pending
        exact .inl (backs_of_pending inner kinds)
    constructor
    · -- An exported function on the line would back the export, whatever its name.
      intro unbacked
      have method := known.resolve_left unbacked
      refine ⟨method, fun s inner exported line => ?_⟩
      have filed : s.file = e.file := ((belongs_extractTree file rules root).symbols s inner).trans
        ((belongs_extractTree file rules root).exports e member).symm
      have other : s.kind ∉ e.kind.symbolKinds := fun kind => unbacked ⟨s, inner, exported, filed, line, kind⟩
      rw [method.1] at other
      simpa [ExportKind.symbolKinds] using other
    · rintro ⟨method, apart⟩ ⟨s, inner, exported, -, line, kind⟩
      rw [method.1] at kind
      have other := apart s inner exported line
      simp [ExportKind.symbolKinds, other] at kind
  methods e filed method := by
    obtain ⟨kind, t, statement, m, method, line⟩ := method
    have listed := Additive.exports.mem_outline.2 ⟨t, statement, _, .method method, List.mem_singleton_self _⟩
    refine mem_exports.2 ⟨_, List.mem_append_left _ listed, ?_⟩
    obtain ⟨file', name, kind', line'⟩ := e
    cases filed
    cases kind
    cases line
    rfl

/-- The assignment to `module.exports` of an object with one method. -/
def Sample.object : Tree :=
  program
    [assignment 0 "module" "exports"
      (.node { kind := .object, row := 0 } [declaration .methodDefinition 0 "start" []])]

/-- The method is exported as a function, and there is no symbol. -/
theorem matched_extractTree_method :
    (extractTree "a.js" ⟨none, []⟩ Sample.object).Matched Sample.object ∧
      (extractTree "a.js" ⟨none, []⟩ Sample.object).exports = [⟨"a.js", "start", .function, 1⟩] ∧
      (extractTree "a.js" ⟨none, []⟩ Sample.object).symbols = [] :=
  ⟨matched_extractTree _ _ _, by decide +kernel, by decide +kernel⟩

end Outline

end Gazetteer
