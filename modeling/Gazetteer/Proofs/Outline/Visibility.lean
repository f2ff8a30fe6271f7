import Gazetteer.Proofs.Outline.Declared
import Gazetteer.Proofs.Outline.Forms
import Gazetteer.Proofs.Project.Extracts
import Gazetteer.Proofs.Registry.Groups

/-!
# Which symbols are exported

A symbol is exported if its owner is among the exported names of the file (`isExported_of_mem_symbols`).  These are the
names that some statement exports (`Exposes`), and besides the own names of functions and classes that are exported as
values (`Namesake`): the names of both kinds go into one list (`mem_exportedNames`).
-/

namespace Gazetteer

set_option autoImplicit false

open Syntax (Tree)

/-- The top-level name that a symbol belongs to: for a method its container, otherwise its own name. -/
def Symbol.owner (s : Symbol) : String :=
  match s.kind with
  | .method => String.ofList (s.qualifiedName.toList.take (s.qualifiedName.length - (s.name.length + 1)))
  | _ => s.name

/-- What is exported of a file shows in its exports. -/
structure Extraction.Shown (x : Extraction) (root : Tree) : Prop where
  /-- An exported symbol has an export under its owner's name, by default, or under a name that a clause or an
  assignment gives the owner. -/
  listed : ∀ s ∈ x.symbols, s.isExported = true → ∃ e ∈ x.exports, e.file = s.file ∧
    (e.name = s.owner ∨ e.name = "default" ∨
      ∃ t ∈ root.namedChildren, ∃ line, Outline.Hands t ⟨s.owner, e.name, line⟩)
  hidden : x.exports = [] → ∀ s ∈ x.symbols, s.isExported = false
  /-- A method is exported exactly if its class or interface is. -/
  inherited : ∀ m ∈ x.symbols, m.kind = .method → ∀ s ∈ x.symbols, s.kind = .classType ∨ s.kind = .interface →
    s.name = m.owner → m.isExported = s.isExported

namespace Outline

/-! ## Symbols -/

theorem owner_method (container name : String) :
    String.ofList (s!"{container}.{name}".toList.take (s!"{container}.{name}".length - (name.length + 1))) =
      container := by
  have spelled : s!"{container}.{name}".toList = container.toList ++ '.' :: name.toList := by
    simp [toString]
  rw [← String.length_toList, spelled, List.length_append, List.length_cons, String.length_toList, String.length_toList,
    Nat.add_sub_cancel, ← String.length_toList, List.take_left, String.ofList_toList]

theorem Declaration.owner_symbol (file : String) (isExported : Bool) (d : Declaration) :
    (d.symbol file isExported).owner = d.owner := by
  cases d with
  | method node held container name => cases held <;> exact owner_method container name
  | _ => rfl

theorem Declaration.isExported_symbol (file : String) (isExported : Bool) (d : Declaration) :
    (d.symbol file isExported).isExported = isExported := by
  cases d with
  | method node held container name => cases held <;> rfl
  | _ => rfl

variable {file name : String} {c : Contribution} {s : Symbol} {root t : Tree}

theorem mem_symbols :
    s ∈ symbols file c ↔ ∃ d ∈ c.declarations, d.symbol file ((exportedNames c).contains d.owner) = s := by
  rw [symbols, List.mem_mergeSort, List.mem_map]

/-- A symbol is exported if its owner is. -/
theorem isExported_of_mem_symbols (member : s ∈ symbols file c) :
    s.isExported = (exportedNames c).contains s.owner := by
  obtain ⟨d, -, rfl⟩ := mem_symbols.1 member
  rw [d.isExported_symbol, d.owner_symbol]

theorem mem_exports {e : Export} : e ∈ exports file c ↔
    ∃ b ∈ c.exports ++ c.pending.map (settle c), (⟨file, b.name, b.kind, b.line⟩ : Export) = e := by
  simp only [exports, List.mem_map, mem_dedupBy_mergeSort]

/-! ## Exported names -/

/-- An export statement declares a name. -/
def ExportsName (t : Tree) (name : String) : Prop :=
  ∃ declaration, ExportsDeclaration t declaration ∧ name ∈ (declared declaration).map (·.1.name)

/-- A function or a class that is exported as a value bears a name, which need not be that of a declaration. -/
inductive Namesake (t : Tree) (name : String) : Prop
  | named {declarations : List Declaration} (names : NamesWhole t name declarations)
  | provided {binding value : Tree} {target : String} (provides : Provides t binding target name value)
      (callable : isCallable value = true)

theorem mem_exportedLocals : name ∈ (programContribution root).exportedLocals ↔
    ∃ t ∈ root.namedChildren, ExportsName t name ∨ Namesake t name := by
  refine Additive.exportedLocals.mem_outline.trans (exists_congr fun t => and_congr_right fun _ => ?_)
  constructor
  · rintro ⟨c, form, member⟩
    cases form with
    | exports exports =>
      rw [exportedLocals_exportedDeclaration] at member
      exact .inl ⟨_, exports, member⟩
    | names names =>
      cases List.mem_singleton.1 member
      exact .inr (.named names)
    | function provides callable =>
      cases List.mem_singleton.1 member
      exact .inr (.provided provides callable)
    | _ => cases member
  · rintro (⟨declaration, exports, member⟩ | names | ⟨provides, callable⟩)
    · refine ⟨_, .exports exports, ?_⟩
      rwa [exportedLocals_exportedDeclaration]
    · exact ⟨_, .names names, List.mem_singleton_self _⟩
    · exact ⟨_, .function provides callable, List.mem_singleton_self _⟩

theorem mem_pending {p : Pending} :
    p ∈ (programContribution root).pending ↔ ∃ t ∈ root.namedChildren, Hands t p := by
  refine Additive.pending.mem_outline.trans (exists_congr fun t => and_congr_right fun _ => ?_)
  constructor
  · rintro ⟨c, form, member⟩
    cases form with
    | hands hands =>
      cases List.mem_singleton.1 member
      exact hands
    | _ => cases member
  · intro hands
    exact ⟨_, .hands hands, List.mem_singleton_self p⟩

theorem mem_exportedNames : name ∈ exportedNames c ↔
    name ∈ c.exportedLocals ∨ ∃ p ∈ c.pending, p.localName = name ∧ (local? c name).isSome = true := by
  simp only [exportedNames, List.mem_append, List.mem_map, List.mem_filter]
  refine or_congr_right (exists_congr fun p => ?_)
  constructor
  · rintro ⟨⟨listed, declared⟩, rfl⟩
    exact ⟨listed, rfl, declared⟩
  · rintro ⟨listed, rfl, declared⟩
    exact ⟨⟨listed, declared⟩, rfl⟩

/-! ## Exports of exported names -/

theorem NamesWhole.exists_whole {declarations : List Declaration} (names : NamesWhole t name declarations) :
    ∃ value, ExportsWhole t (some value) ∧ value.kind ≠ .identifier := by
  cases names with
  | classValue bare held kind named => exact ⟨_, .default bare held, by simp [kind]⟩
  | function whole callable arrow named =>
    refine ⟨_, whole, fun identifier => ?_⟩
    obtain kind | kind := kind_of_callable callable arrow <;> cases identifier.symm.trans kind

/-- A statement that exports a declaration, or a value with a name, has an export under this name or by default. -/
theorem exists_export_of_name (known : ExportsName t name ∨ Namesake t name) :
    ∃ b ∈ (contribution t).exports, b.name = name ∨ b.name = "default" := by
  simp only [Additive.exports.mem_contribution]
  obtain ⟨declaration, exports, member⟩ | names | ⟨provides, callable⟩ := known
  · obtain ⟨e, listed, rfl⟩ := List.mem_map.1 member
    have inner : (if t.hasKeyword "default" then ⟨"default", .default, e.1.line⟩ else e.1) ∈
        (exportedDeclaration (t.hasKeyword "default") declaration).exports := by
      rw [exports_exportedDeclaration]
      exact List.mem_map_of_mem listed
    refine ⟨_, ⟨_, .exports exports, inner⟩, ?_⟩
    split
    · exact .inr rfl
    · exact .inl rfl
  · obtain ⟨value, whole, other⟩ := names.exists_whole
    exact ⟨_, ⟨_, .whole whole (by simpa using other), List.mem_singleton_self _⟩, .inr rfl⟩
  · exact ⟨_, ⟨_, .function provides callable, List.mem_singleton_self _⟩, .inl rfl⟩

/-- An exported name has an export: under this name, by default, or under a name that a statement gives it. -/
theorem exists_export_of_exportedName (exported : name ∈ exportedNames (programContribution root)) :
    ∃ e ∈ exports file (programContribution root), e.file = file ∧ (e.name = name ∨ e.name = "default" ∨
      ∃ t ∈ root.namedChildren, ∃ line, Hands t ⟨name, e.name, line⟩) := by
  obtain own | ⟨p, listed, rfl, -⟩ := mem_exportedNames.1 exported
  · obtain ⟨t, statement, known⟩ := mem_exportedLocals.1 own
    obtain ⟨b, inner, called⟩ := exists_export_of_name known
    have member := Additive.exports.mem_program.2 ⟨t, statement, inner⟩
    exact ⟨_, mem_exports.2 ⟨b, List.mem_append_left _ member, rfl⟩, rfl, called.imp_right .inl⟩
  · obtain ⟨t, statement, hands⟩ := mem_pending.1 listed
    exact ⟨_, mem_exports.2 ⟨_, List.mem_append_right _ (List.mem_map_of_mem listed), rfl⟩, rfl,
      .inr (.inr ⟨t, statement, p.line, hands⟩)⟩

/-! ## Symbols and exports -/

theorem shown_extractTree (file : String) (rules : ImportRules) (root : Tree) :
    (extractTree file rules root).Shown root := by
  have listed : ∀ s ∈ symbols file (programContribution root), s.isExported = true →
      ∃ e ∈ exports file (programContribution root), e.file = s.file ∧ (e.name = s.owner ∨ e.name = "default" ∨
        ∃ t ∈ root.namedChildren, ∃ line, Hands t ⟨s.owner, e.name, line⟩) := by
    intro s member exported
    rw [isExported_of_mem_symbols member, List.contains_iff_mem] at exported
    rw [(belongs_extractTree file rules root).symbols s member]
    exact exists_export_of_exportedName exported
  refine ⟨listed, fun none s member => ?_, fun m method _ s member kind same => ?_⟩
  · refine Bool.eq_false_iff.2 fun exported => ?_
    obtain ⟨e, inner, -⟩ := listed s member exported
    rw [show exports file (programContribution root) = [] from none] at inner
    cases inner
  · have owner : s.owner = s.name := by
      obtain kind | kind := kind <;> rw [Symbol.owner, kind]
    rw [isExported_of_mem_symbols method, isExported_of_mem_symbols member, owner, same]

/-- A class with a method on the first line, and on the second an assignment that exports the class as `b`. -/
def Sample.exportedClass : Tree :=
  program
    [declaration .classDeclaration 0 "A"
        [.node { kind := .other, role := some .body, row := 0 } [declaration .methodDefinition 0 "m" []]],
      assignment 1 "exports" "b" (.leaf { kind := .identifier, row := 1 } "" "A")]

/-- Both symbols are exported, and their export bears the name that the assignment gives. -/
theorem shown_extractTree_assigned :
    (extractTree "a.js" ⟨none, []⟩ Sample.exportedClass).Shown Sample.exportedClass ∧
      ((extractTree "a.js" ⟨none, []⟩ Sample.exportedClass).symbols.map fun s => (s.qualifiedName, s.isExported)).Perm
        [("A", true), ("A.m", true)] ∧
      (extractTree "a.js" ⟨none, []⟩ Sample.exportedClass).exports = [⟨"a.js", "b", .classType, 1⟩] := by
  refine ⟨shown_extractTree _ _ _, ?_, by decide +kernel⟩
  exact ((List.mergeSort_perm _ _).map _).trans (.of_eq (by decide +kernel))

/-! ## Declarations of their own -/

/-- A statement of a program exports what a name stands for at its top level: it declares the name as it exports it, or
it exports the name. -/
def Exposes (root : Tree) (name : String) : Prop :=
  ∃ t ∈ root.namedChildren, ExportsName t name ∨ ∃ p, Hands t p ∧ p.localName = name

variable {d : Declaration} {b : Binding} {ds : List Declaration}

/-- What declares something neither exports nor imports. -/
theorem other_of_declared (bound : (b, ds) ∈ declared t) :
    t.kind ≠ .exportStatement ∧ t.kind ≠ .importStatement ∧ t.kind ≠ .expressionStatement := by
  cases t with
  | leaf l lead text =>
    rw [declared] at bound
    cases bound
  | node l ts =>
    refine ⟨?_, ?_, ?_⟩
    all_goals
      intro kind
      change l.kind = _ at kind
      simp [declared, kind] at bound

theorem isSome_local? (member : b ∈ c.locals) : (local? c b.name).isSome = true := by
  rw [local?, List.find?_isSome]
  exact ⟨b, List.mem_reverse.2 member, decide_eq_true rfl⟩

/-- A declared name is exported if a statement exports it, or if it is the name of a value that is exported. -/
theorem mem_exportedNames_of_declared (statement : t ∈ root.namedChildren) (bound : (b, ds) ∈ declared t) :
    b.name ∈ exportedNames (programContribution root) ↔
      Exposes root b.name ∨ ∃ u ∈ root.namedChildren, Namesake u b.name := by
  have member : b ∈ (programContribution root).locals :=
    Additive.locals.mem_outline.2 ⟨t, statement, _, .declares (other_of_declared bound), List.mem_map_of_mem bound⟩
  simp only [mem_exportedNames, mem_exportedLocals, mem_pending, isSome_local? member, and_true, Exposes]
  constructor
  · rintro (⟨u, listed, names | same⟩ | ⟨p, ⟨u, listed, hands⟩, same⟩)
    · exact .inl ⟨u, listed, .inl names⟩
    · exact .inr ⟨u, listed, same⟩
    · exact .inl ⟨u, listed, .inr ⟨p, hands, same⟩⟩
  · rintro (⟨u, listed, names | ⟨p, hands, same⟩⟩ | ⟨u, listed, same⟩)
    · exact .inl ⟨u, listed, .inl names⟩
    · exact .inr ⟨p, ⟨u, listed, hands⟩, same⟩
    · exact .inl ⟨u, listed, .inr same⟩

/-- The symbol of a declaration that is a statement of its own is exported exactly if some statement exports its name,
or exports a function or a class that bears the same name. -/
theorem isExported_of_declared (file : String) (rules : ImportRules) (statement : t ∈ root.namedChildren)
    (declares : d ∈ (declared t).flatMap (·.2)) :
    (∃ s ∈ (extractTree file rules root).symbols, d.symbol file s.isExported = s) ∧
      ∀ s ∈ (extractTree file rules root).symbols, d.symbol file s.isExported = s →
        (s.isExported = true ↔ Exposes root d.owner ∨ ∃ u ∈ root.namedChildren, Namesake u d.owner) := by
  obtain ⟨⟨b, ds⟩, bound, inner⟩ := List.mem_flatMap.1 declares
  have owner : d.owner = b.name := (Shapewise.entry.declared t bound).owned d inner
  refine ⟨?_, fun s member same => ?_⟩
  · have listed : d ∈ (programContribution root).declarations :=
      Additive.declarations.mem_outline.2 ⟨t, statement, _, .declares (other_of_declared bound), declares⟩
    refine ⟨_, mem_symbols.2 ⟨d, listed, rfl⟩, ?_⟩
    rw [d.isExported_symbol]
  · have known : s.owner = b.name := by rw [← same, d.owner_symbol, owner]
    rw [isExported_of_mem_symbols member, List.contains_iff_mem, known, owner,
      mem_exportedNames_of_declared statement bound]

/-- A function on the first line, and on the second the export of another function under its name. -/
def Sample.namesakes : Tree :=
  program
    [declaration .functionDeclaration 0 "f" [],
      assignment 1 "exports" "f" (.node { kind := .arrowFunction, row := 1 } [])]

/-- No statement exports the function on the first line, yet its symbol is exported. -/
theorem isExported_of_declared_namesake :
    Sample.declaration .functionDeclaration 0 "f" [] ∈ Sample.namesakes.namedChildren ∧
      .function (Sample.declaration .functionDeclaration 0 "f" []) "f" ∈
        (declared (Sample.declaration .functionDeclaration 0 "f" [])).flatMap (·.2) ∧
      ¬ Exposes Sample.namesakes "f" ∧
      ∃ s ∈ (extractTree "a.js" ⟨none, []⟩ Sample.namesakes).symbols,
        Declaration.symbol "a.js" s.isExported (.function (Sample.declaration .functionDeclaration 0 "f" []) "f") = s ∧
          s.isExported = true := by
  have statement : Sample.declaration .functionDeclaration 0 "f" [] ∈ Sample.namesakes.namedChildren :=
    List.mem_filter.2 ⟨.head _, rfl⟩
  have declares : .function (Sample.declaration .functionDeclaration 0 "f" []) "f" ∈
      (declared (Sample.declaration .functionDeclaration 0 "f" [])).flatMap (·.2) := .head _
  have hidden : ¬ Exposes Sample.namesakes "f" := by
    have other : ∀ t ∈ Sample.namesakes.namedChildren, t.kind ≠ .exportStatement := by decide
    -- There is no export statement, and the assignment exports a function of its own and hands over no name.
    rintro ⟨t, listed, ⟨declaration, exports, -⟩ | ⟨p, hands, -⟩⟩
    · exact other t listed exports.statement
    · have pending := mem_pending.2 ⟨t, listed, hands⟩
      cases pending
  obtain ⟨⟨s, member, same⟩, exactly⟩ := isExported_of_declared "a.js" ⟨none, []⟩ statement declares
  have assigns : AssignsProperty (Sample.assignment 1 "exports" "f" (.node { kind := .arrowFunction, row := 1 } []))
      (Sample.member 1 "exports" "f") (Sample.property 1 "f")
      (.node { kind := .arrowFunction, role := some .right, row := 1 } []) :=
    ⟨⟨rfl, ⟨_, rfl, rfl, rfl, rfl⟩, rfl⟩, by decide, ⟨_, rfl, .inl rfl⟩, rfl⟩
  refine ⟨statement, declares, hidden, s, member, same,
    (exactly s member same).2 (.inr ⟨_, ?_, .provided (.property assigns) rfl⟩)⟩
  exact List.mem_filter.2 ⟨.tail _ (.head _), rfl⟩

end Outline

end Gazetteer
