import Gazetteer.Proofs.Outline.Visibility
import Mathlib.Tactic.MkIffOfInductiveProp

/-!
# Names that imports bind

A name that a file exports, but does not declare, counts as exported again if it is among the identifiers in the
clauses of its imports (`mem_imported`).  These are more than the names that the imports bind: a specifier with an alias
binds the alias only (`Binds`), and the name by which it asks for the thing is just cited (`Cites`).  So where another
thing of the file bears a cited name, its export is taken for that of an import (`exports_of_undeclared`).
-/

namespace Gazetteer.Outline

set_option autoImplicit false

open Syntax (Tree)

/-! ## Identifiers -/

/-- A tree is an identifier with this text, or has one in it that is not within a part that is skipped. -/
inductive Names (skips : Tree → Tree → Prop) (name : String) : Tree → Prop
  | here {t : Tree} (identifier : t.kind = .identifier) (called : t.text = name) : Names skips name t
  | part {t part : Tree} (other : t.kind ≠ .identifier) (inner : part ∈ t.children) (own : ¬ skips t part)
      (names : Names skips name part) : Names skips name t

/-- A name occurs in a tree. -/
def Occurs (name : String) (t : Tree) : Prop := Names (fun _ _ => False) name t

/-- The part of a specifier with an alias that is the name of the thing in the module that it comes from. -/
@[mk_iff isForeign_iff]
structure IsForeign (t part : Tree) : Prop where
  specifier : t.kind = .importSpecifier
  aliased : (t.child? .alias).isSome = true
  name : part.label.role = some .name

/-- A part of an import binds a name: it occurs there, but not as the name of something under an alias. -/
def Binds (name : String) (t : Tree) : Prop := Names IsForeign name t

/-- A part of an import has a name of something under an alias. -/
inductive Cites (name : String) : Tree → Prop
  | foreign {t part : Tree} (other : t.kind ≠ .identifier) (inner : part ∈ t.children) (foreign : IsForeign t part)
      (occurs : Occurs name part) : Cites name t
  | part {t part : Tree} (other : t.kind ≠ .identifier) (inner : part ∈ t.children) (own : ¬ IsForeign t part)
      (cites : Cites name part) : Cites name t

variable {name : String}

section Shapes

variable {skips : Tree → Tree → Prop} {t : Tree}

theorem names_identifier (identifier : t.kind = .identifier) : Names skips name t ↔ t.text = name := by
  constructor
  · intro names
    cases names with
    | here _ called => exact called
    | part other => exact absurd identifier other
  · intro called
    exact .here identifier called

theorem names_other (other : t.kind ≠ .identifier) :
    Names skips name t ↔ ∃ part ∈ t.children, ¬ skips t part ∧ Names skips name part := by
  constructor
  · intro names
    cases names with
    | here identifier => exact absurd identifier other
    | part _ inner own names => exact ⟨_, inner, own, names⟩
  · rintro ⟨part, inner, own, names⟩
    exact .part other inner own names

end Shapes

mutual

theorem mem_identifiers : (t : Tree) → (name ∈ identifiers t ↔ Occurs name t)
  | .leaf l lead text => by
      by_cases kind : l.kind = .identifier
      · have same : Occurs name (.leaf l lead text) ↔ text = name := names_identifier kind
        simp [same, identifiers, kind, eq_comm]
      · have parts : Occurs name (.leaf l lead text) ↔ ∃ part ∈ [], ¬ False ∧ Occurs name part := names_other kind
        simp [parts, identifiers, kind]
  | .node l ts => by
      by_cases kind : l.kind = .identifier
      · have same : Occurs name (.node l ts) ↔ Tree.texts ts = name := names_identifier kind
        simp [same, identifiers, kind, eq_comm]
      · have parts : Occurs name (.node l ts) ↔ ∃ part ∈ ts, ¬ False ∧ Occurs name part := names_other kind
        simp [parts, identifiers, kind, mem_identifiersIn ts]

theorem mem_identifiersIn : (ts : List Tree) → (name ∈ identifiersIn ts ↔ ∃ t ∈ ts, Occurs name t)
  | [] => by simp [identifiersIn]
  | t :: ts => by simp [identifiersIn, mem_identifiers t, mem_identifiersIn ts]

end

theorem Names.occurs {skips : Tree → Tree → Prop} {t : Tree} (names : Names skips name t) : Occurs name t := by
  induction names with
  | here identifier called => exact .here identifier called
  | part other inner own names ih => exact .part other inner not_false ih

theorem Cites.occurs {t : Tree} (cites : Cites name t) : Occurs name t := by
  induction cites with
  | foreign other inner foreign occurs => exact .part other inner not_false occurs
  | part other inner own cites ih => exact .part other inner not_false ih

theorem occurs_iff {t : Tree} : Occurs name t ↔ Binds name t ∨ Cites name t := by
  constructor
  · intro occurs
    induction occurs with
    | here identifier called => exact .inl (.here identifier called)
    | @part t part other inner own occurs ih =>
      by_cases foreign : IsForeign t part
      · exact .inr (.foreign other inner foreign occurs)
      · rcases ih with binds | cites
        · exact .inl (.part other inner foreign binds)
        · exact .inr (.part other inner foreign cites)
  · rintro (binds | cites)
    · exact binds.occurs
    · exact cites.occurs

/-! ## Import statements -/

/-- A clause of an import statement. -/
structure Imports (t clause : Tree) : Prop where
  statement : t.kind = .importStatement
  listed : clause ∈ t.children
  kind : clause.kind = .importClause ∨ clause.kind = .importRequireClause

/-- Some import statement of a program binds a name. -/
def ImportBinds (root : Tree) (name : String) : Prop :=
  ∃ t ∈ root.namedChildren, ∃ clause, Imports t clause ∧ Binds name clause

/-- Some import statement of a program binds something that has the name in another module under an alias. -/
def ImportCites (root : Tree) (name : String) : Prop :=
  ∃ t ∈ root.namedChildren, ∃ clause, Imports t clause ∧ Cites name clause

/-- A top-level statement declares a name, exported or not. -/
def DeclaresName (t : Tree) (name : String) : Prop := name ∈ (declared t).map (·.1.name) ∨ ExportsName t name

variable {root t : Tree}

theorem mem_imported_importContribution :
    name ∈ (importContribution t).imported ↔ ∃ clause ∈ t.children,
      (clause.kind = .importClause ∨ clause.kind = .importRequireClause) ∧ Occurs name clause := by
  simp [importContribution, List.mem_flatMap, mem_identifiers, and_assoc]

theorem mem_imported : name ∈ (programContribution root).imported ↔ ImportBinds root name ∨ ImportCites root name := by
  constructor
  · intro member
    obtain ⟨t, statement, c, form, inner⟩ := Additive.imported.mem_outline.1 member
    cases form with
    | imports kind =>
      obtain ⟨clause, listed, kinds, occurs⟩ := mem_imported_importContribution.1 inner
      rcases occurs_iff.1 occurs with binds | cites
      · exact .inl ⟨t, statement, clause, ⟨kind, listed, kinds⟩, binds⟩
      · exact .inr ⟨t, statement, clause, ⟨kind, listed, kinds⟩, cites⟩
    | @exports declaration exports =>
      have none : (exportedDeclaration (t.hasKeyword "default") declaration).imported = [] := rfl
      rw [none] at inner
      cases inner
    | _ => cases inner
  · have known {t clause : Tree} (statement : t ∈ root.namedChildren) (imports : Imports t clause)
        (occurs : Occurs name clause) : name ∈ (programContribution root).imported :=
      Additive.imported.mem_outline.2 ⟨t, statement, _, .imports imports.statement,
        mem_imported_importContribution.2 ⟨clause, imports.listed, imports.kind, occurs⟩⟩
    rintro (⟨t, statement, clause, imports, binds⟩ | ⟨t, statement, clause, imports, cites⟩)
    · exact known statement imports binds.occurs
    · exact known statement imports cites.occurs

/-! ## Names that are not declared -/

theorem exists_local_iff :
    (∃ b ∈ (programContribution root).locals, b.name = name) ↔ ∃ t ∈ root.namedChildren, DeclaresName t name := by
  constructor
  · rintro ⟨b, member, rfl⟩
    obtain ⟨t, statement, c, form, inner⟩ := Additive.locals.mem_outline.1 member
    refine ⟨t, statement, ?_⟩
    cases form with
    | declares other =>
      obtain ⟨e, bound, rfl⟩ := List.mem_map.1 inner
      exact .inl (List.mem_map_of_mem bound)
    | exports exports =>
      rw [locals_exportedDeclaration] at inner
      obtain ⟨e, bound, rfl⟩ := List.mem_map.1 inner
      exact .inr ⟨_, exports, List.mem_map_of_mem bound⟩
    | _ => cases inner
  · rintro ⟨t, statement, bound | ⟨declaration, exports, bound⟩⟩
    · obtain ⟨⟨b, ds⟩, listed, rfl⟩ := List.mem_map.1 bound
      exact ⟨b, Additive.locals.mem_outline.2 ⟨t, statement, _, .declares (other_of_declared listed),
        List.mem_map_of_mem listed⟩, rfl⟩
    · obtain ⟨⟨b, ds⟩, listed, rfl⟩ := List.mem_map.1 bound
      refine ⟨b, Additive.locals.mem_outline.2 ⟨t, statement, _, .exports exports, ?_⟩, rfl⟩
      rw [locals_exportedDeclaration]
      exact List.mem_map_of_mem listed

theorem local?_eq_none_iff :
    local? (programContribution root) name = none ↔ ∀ t ∈ root.namedChildren, ¬ DeclaresName t name := by
  have missing : local? (programContribution root) name = none ↔
      ¬ ∃ b ∈ (programContribution root).locals, b.name = name := by
    simp [local?]
  rw [missing, exists_local_iff]
  simp

theorem settle_of_undeclared {c : Contribution} {p : Pending} (undeclared : local? c p.localName = none) :
    settle c p = ⟨p.exported, if p.exported = "default" then .default
      else if p.localName ∈ c.imported then .reExport else .variable, p.line⟩ := by
  unfold settle
  rw [undeclared]
  by_cases imported : p.localName ∈ c.imported <;> simp [imported]

/-- A name that a statement exports and no statement declares is exported by default if it is exported under this name,
again if some import binds it or cites it, and as a variable otherwise. -/
theorem exports_of_undeclared (file : String) (rules : ImportRules) {p : Pending} (statement : t ∈ root.namedChildren)
    (hands : Hands t p) (undeclared : ∀ u ∈ root.namedChildren, ¬ DeclaresName u p.localName) :
    ∃ kind, settle (programContribution root) p = ⟨p.exported, kind, p.line⟩ ∧
      ⟨file, p.exported, kind, p.line⟩ ∈ (extractTree file rules root).exports ∧
      (kind = .default ↔ p.exported = "default") ∧
      (kind = .reExport ↔ p.exported ≠ "default" ∧ (ImportBinds root p.localName ∨ ImportCites root p.localName)) ∧
      (kind = .variable ↔
        p.exported ≠ "default" ∧ ¬ ImportBinds root p.localName ∧ ¬ ImportCites root p.localName) := by
  have listed : p ∈ (programContribution root).pending := mem_pending.2 ⟨t, statement, hands⟩
  have settled := settle_of_undeclared (local?_eq_none_iff.2 undeclared)
  refine ⟨_, settled, ?_, ?_⟩
  · refine mem_exports.2 ⟨settle (programContribution root) p, ?_, ?_⟩
    · exact List.mem_append_right _ (List.mem_map_of_mem listed)
    · rw [settled]
  · simp only [← not_or, ← mem_imported]
    by_cases default : p.exported = "default"
    · simp [default]
    · by_cases imported : p.localName ∈ (programContribution root).imported
      · simp [default, imported]
      · simp [default, imported]

namespace Sample

/-- A name that has a part in its parent. -/
def named (role : Syntax.Role) (row : Nat) (name : String) : Tree :=
  .leaf { kind := .identifier, role := some role, row } " " name

/-- The clause `{ a as b, c }` of an import. -/
def clause : Tree :=
  .node { kind := .importClause, row := 0 }
    [.node { kind := .other, row := 0 }
      [.node { kind := .importSpecifier, row := 0 } [named .name 0 "a", named .alias 0 "b"],
        .node { kind := .importSpecifier, row := 0 } [named .name 0 "c"]]]

/-- The import of `a` as `b` and of `c` on the first line, and the export of `a` on the second. -/
def aliasedImport : Tree :=
  program
    [.node { kind := .importStatement, row := 0 } [clause],
      .node { kind := .exportStatement, row := 1 }
        [.node { kind := .exportClause, row := 1 }
          [.node { kind := .exportSpecifier, row := 1 } [named .name 1 "a"]]]]

theorem binds_clause {name : String} : Binds name clause ↔ name = "b" ∨ name = "c" := by
  simp (disch := decide) [Binds, clause, named, names_other, names_identifier, isForeign_iff, Tree.kind, Tree.label,
    Tree.child?, Tree.children, Tree.text, eq_comm]

end Sample

open Sample in
/-- The import binds `b` and `c` but not `a`, and yet `a` is exported again. -/
theorem exports_of_undeclared_aliased :
    (∀ name, ImportBinds aliasedImport name ↔ name = "b" ∨ name = "c") ∧ ImportCites aliasedImport "a" ∧
      ⟨"a.ts", "a", .reExport, 2⟩ ∈ (extractTree "a.ts" ⟨none, []⟩ aliasedImport).exports := by
  have imports : Imports (.node { kind := .importStatement, row := 0 } [clause]) clause := ⟨rfl, .head _, .inl rfl⟩
  have first : .node { kind := .importStatement, row := 0 } [clause] ∈ aliasedImport.namedChildren :=
    List.mem_filter.2 ⟨.head _, rfl⟩
  have binds (name : String) : ImportBinds aliasedImport name ↔ name = "b" ∨ name = "c" := by
    rw [← binds_clause]
    constructor
    · rintro ⟨t, statement, part, ⟨kind, listed, -⟩, binds⟩
      rcases List.mem_cons.1 (List.mem_filter.1 statement).1 with rfl | statement
      · rwa [← List.mem_singleton.1 listed]
      · rw [List.mem_singleton.1 statement] at kind
        cases kind
    · intro binds
      exact ⟨_, first, _, imports, binds⟩
  have cites : ImportCites aliasedImport "a" :=
    ⟨_, first, _, imports, .part (by decide) (.head _) (fun foreign => nomatch foreign.specifier)
      (.part (by decide) (.head _) (fun foreign => nomatch foreign.specifier)
        (.foreign (by decide) (.head _) ⟨rfl, rfl, rfl⟩ (.here rfl rfl)))⟩
  have pending : ⟨"a", "a", 2⟩ ∈ (programContribution aliasedImport).pending := by decide
  obtain ⟨t, statement, hands⟩ := mem_pending.1 pending
  have undeclared : ∀ t ∈ aliasedImport.namedChildren, ¬ DeclaresName t "a" := by
    rw [← local?_eq_none_iff]
    decide
  obtain ⟨kind, -, listed, -, again, -⟩ := exports_of_undeclared "a.ts" ⟨none, []⟩ statement hands undeclared
  rw [again.2 ⟨by decide, .inr cites⟩] at listed
  exact ⟨binds, cites, listed⟩

end Gazetteer.Outline
