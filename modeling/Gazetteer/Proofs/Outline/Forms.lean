import Gazetteer.Proofs.Outline.Sum

/-!
# Forms of statements

A top-level statement declares, imports, or exports, and exports take several forms.  `Provides` are the ways in which
an assignment exports a value under a name, `Hands` the ways in which a local name is exported under another, and
`Contributes` lists every form with what it adds to the outline.  Main statement: what a statement contributes is what
its forms add and nothing else (`Additive.mem_contribution`), so a law of outlines needs one case for each form.
-/

namespace Gazetteer.Outline

set_option autoImplicit false

open Syntax (Tree)

/-! ## Export statements -/

/-- An export of a declaration. -/
structure ExportsDeclaration (t declaration : Tree) : Prop where
  statement : t.kind = .exportStatement
  own : t.child? .source = none
  declares : t.child? .declaration = some declaration

/-- An export that neither names a module nor declares; it is a default export or lists names. -/
structure ExportsRest (t : Tree) (isDefault : Bool) : Prop where
  statement : t.kind = .exportStatement
  own : t.child? .source = none
  bare : t.child? .declaration = none
  keyword : t.hasKeyword "default" = isDefault

/-! ## Assignments -/

/-- An assignment to a member of something. -/
structure Assigns (t left value : Tree) : Prop where
  statement : t.kind = .expressionStatement
  assignment : ∃ e, t.namedChildren.head? = some e ∧ e.kind = .assignmentExpression ∧ e.child? .left = some left ∧
    e.child? .right = some value
  member : left.kind = .memberExpression

/-- The assignment of a value to `module.exports`. -/
def AssignsModule (t value : Tree) : Prop := ∃ left, Assigns t left value ∧ left.text = "module.exports"

/-- The assignment of a value to a property of `exports` or of `module.exports`. -/
structure AssignsProperty (t left property value : Tree) : Prop where
  assigns : Assigns t left value
  part : left.text ≠ "module.exports"
  object : ∃ object, left.child? .object = some object ∧
    (object.text = "exports" ∨ object.text = "module.exports")
  property : left.child? .property = some property

/-- A member of an object that is assigned to `module.exports`. -/
def ExportsMember (t m : Tree) : Prop := ∃ object, AssignsModule t object ∧ object.kind = .object ∧ m ∈ object.children

/-- A method of an object that is assigned to `module.exports`. -/
structure ExportsMethod (t m : Tree) (name : String) : Prop where
  member : ExportsMember t m
  method : m.kind = .methodDefinition
  named : (m.child? .name).map (·.text) = some name

/-- The value that an assignment exports under a name.  It is bound by the statement, or by a pair of the object that
is assigned. -/
inductive Provides (t : Tree) : (binding : Tree) → (target name : String) → (value : Tree) → Prop
  | property {left property value : Tree} (assigns : AssignsProperty t left property value) :
      Provides t t left.text property.text value
  | pair {m key value : Tree} (member : ExportsMember t m) (pair : m.kind = .pair) (named : m.child? .key = some key)
      (held : m.child? .value = some value) :
      Provides t m s!"module.exports.{withoutQuotes key.text}" (withoutQuotes key.text) value

/-! ## Both -/

/-- What is exported as a whole: by default, or by assignment to `module.exports`. -/
inductive ExportsWhole (t : Tree) (value? : Option Tree) : Prop
  | default (bare : ExportsRest t true) (value : t.child? .value = value?)
  | assigned {value : Tree} (assigns : AssignsModule t value) (single : value.kind ≠ .object)
      (whole : value? = some value)

/-- A value that is exported as a whole and has a name of its own, with what it declares. -/
inductive NamesWhole (t : Tree) (name : String) : List Declaration → Prop
  | classValue {value : Tree} (bare : ExportsRest t true) (whole : t.child? .value = some value)
      (kind : value.kind = .classExpression) (named : (value.child? .name).map (·.text) = some name) :
      NamesWhole t name (.classType value name :: members value name)
  | function {value : Tree} (whole : ExportsWhole t (some value)) (callable : isCallable value = true)
      (arrow : value.kind ≠ .arrowFunction) (named : (value.child? .name).map (·.text) = some name) :
      NamesWhole t name [.function value name]

/-- A local name that a statement exports, with the name under which it does so. -/
inductive Hands (t : Tree) : Pending → Prop
  | listed {clause : Tree} {name : String} {other? : Option String} (bare : ExportsRest t false)
      (part : clause ∈ t.children.filter fun c => c.kind = .exportClause)
      (entry : (name, other?) ∈ clauseNames clause) :
      Hands t ⟨name, other?.getD name, t.line⟩
  | whole {value : Tree} (whole : ExportsWhole t (some value)) (name : value.kind = .identifier) :
      Hands t ⟨value.text, "default", t.line⟩
  | shorthand {m : Tree} (member : ExportsMember t m) (shorthand : m.kind = .shorthandProperty) :
      Hands t ⟨m.text, m.text, m.line⟩
  | provided {binding value : Tree} {target name : String} (provides : Provides t binding target name value)
      (identifier : value.kind = .identifier) : Hands t ⟨value.text, name, binding.line⟩

/-- The forms of a statement, with what each adds. -/
inductive Contributes (t : Tree) : Contribution → Prop
  | declares (other : t.kind ≠ .exportStatement ∧ t.kind ≠ .importStatement ∧ t.kind ≠ .expressionStatement) :
      Contributes t (declarationContribution t)
  | imports (statement : t.kind = .importStatement) : Contributes t (importContribution t)
  | passes {source : Tree} (statement : t.kind = .exportStatement) (named : t.child? .source = some source) :
      Contributes t (sourceContribution t source)
  | exports {declaration : Tree} (exports : ExportsDeclaration t declaration) :
      Contributes t (exportedDeclaration (t.hasKeyword "default") declaration)
  | hands {p : Pending} (hands : Hands t p) : Contributes t { pending := [p] }
  | names {name : String} {declarations : List Declaration} (names : NamesWhole t name declarations) :
      Contributes t { declarations, exportedLocals := [name] }
  | whole {value? : Option Tree} (whole : ExportsWhole t value?) (other : ∀ v ∈ value?, v.kind ≠ .identifier) :
      Contributes t { exports := [⟨"default", .default, t.line⟩] }
  | function {binding value : Tree} {target name : String} (provides : Provides t binding target name value)
      (callable : isCallable value = true) :
      Contributes t
        { declarations := [.variableFunction binding value name target], exportedLocals := [name]
          exports := [⟨name, .function, binding.line⟩] }
  | data {binding value : Tree} {target name : String} (provides : Provides t binding target name value)
      (data : isCallable value = false) (other : value.kind ≠ .identifier) :
      Contributes t { exports := [⟨name, .variable, binding.line⟩] }
  | method {m : Tree} {name : String} (method : ExportsMethod t m name) :
      Contributes t { exports := [⟨name, .function, m.line⟩] }

/-! ## What the forms add -/

theorem kind_of_callable {value : Tree} (callable : isCallable value = true) (arrow : value.kind ≠ .arrowFunction) :
    value.kind = .functionExpression ∨ value.kind = .generatorFunction := by
  simpa [isCallable, arrow] using callable

/-! ### Exported declarations -/

section ExportedDeclaration

variable (isDefault : Bool) (t : Tree)

theorem declarations_exportedDeclaration :
    (exportedDeclaration isDefault t).declarations = (declared t).flatMap (·.2) := List.append_nil _

theorem locals_exportedDeclaration : (exportedDeclaration isDefault t).locals = (declared t).map (·.1) :=
  List.append_nil _

theorem exportedLocals_exportedDeclaration :
    (exportedDeclaration isDefault t).exportedLocals = (declared t).map (·.1.name) := List.map_map

theorem exports_exportedDeclaration : (exportedDeclaration isDefault t).exports =
    (declared t).map fun e => if isDefault then ⟨"default", .default, e.1.line⟩ else e.1 := by
  cases isDefault
  · rfl
  · exact List.map_map

end ExportedDeclaration

/-! ### Statements -/

section Equations

variable {t left property value : Tree}

theorem contribution_of_kind (statement : t.kind = .expressionStatement) :
    contribution t = assignmentContribution t := by
  rw [contribution, statement]

theorem contribution_of_assignsModule (assigns : AssignsModule t value) :
    contribution t = moduleExport value t.line := by
  obtain ⟨left, ⟨statement, ⟨e, first, kind, target, assigned⟩, member⟩, whole⟩ := assigns
  rw [contribution_of_kind statement, assignmentContribution, first]
  simp [kind, target, assigned, member, whole]

theorem contribution_of_assignsProperty (assigns : AssignsProperty t left property value) :
    contribution t = boundExport t left.text property.text value t.line := by
  obtain ⟨⟨statement, ⟨e, first, kind, target, assigned⟩, member⟩, part, ⟨object, held, exports⟩, named⟩ := assigns
  rw [contribution_of_kind statement, assignmentContribution, first]
  simp [kind, target, assigned, member, part, held, exports, named]

theorem contribution_of_exportsRest {isDefault : Bool} (bare : ExportsRest t isDefault) :
    contribution t =
      if isDefault then defaultContribution t.line (t.child? .value)
      else
        { pending := (t.children.filter fun c => c.kind = .exportClause).flatMap fun clause =>
            (clauseNames clause).map fun e => ⟨e.1, e.2.getD e.1, t.line⟩ } := by
  rw [contribution, bare.statement]
  simp [exportContribution, bare.own, bare.bare, bare.keyword]

end Equations

/-! ## What a statement contributes -/

section Parts

variable {β : Type} {part : Contribution → List β} {t : Tree} {b : β}

theorem Additive.mem_pending (additive : Additive part) {ps : List Pending} :
    b ∈ part { pending := ps } ↔ ∃ p ∈ ps, b ∈ part { pending := [p] } := by
  induction ps with
  | nil =>
    have none : part { pending := [] } = [] := additive.empty
    simp [none]
  | cons p ps ih =>
    have split : part { pending := p :: ps } = part { pending := [p] } ++ part { pending := ps } :=
      additive { pending := [p] } { pending := ps }
    simp only [split, List.mem_append, ih, List.mem_cons, exists_eq_or_imp]

/-! ### From what is contributed to its form -/

theorem exists_form_of_bound {binding value : Tree} {target name : String}
    (provides : Provides t binding target name value)
    (inner : b ∈ part (boundExport binding target name value binding.line)) : ∃ c, Contributes t c ∧ b ∈ part c := by
  unfold boundExport at inner
  split at inner
  · rename_i callable
    exact ⟨_, .function provides callable, inner⟩
  · rename_i data
    split at inner
    · rename_i identifier
      exact ⟨_, .hands (.provided provides identifier), inner⟩
    · rename_i other
      exact ⟨_, .data provides (Bool.eq_false_iff.2 data) other, inner⟩

theorem Additive.exists_form_of_member (additive : Additive part) {m : Tree} (member : ExportsMember t m)
    (inner : b ∈ part (exportedMember m)) : ∃ c, Contributes t c ∧ b ∈ part c := by
  have nothing : b ∉ part {} := by simp [additive.empty]
  unfold exportedMember at inner
  split at inner
  · rename_i shorthand
    exact ⟨_, .hands (.shorthand member shorthand), inner⟩
  · rename_i pair
    split at inner
    · rename_i key value named held
      exact exists_form_of_bound (.pair member pair named held) inner
    · exact absurd inner nothing
  · rename_i method
    split at inner
    · rename_i key named
      exact ⟨_, .method ⟨member, method, by rw [named]; rfl⟩, inner⟩
    · exact absurd inner nothing
  · exact absurd inner nothing

/-- A value with a name of its own adds what it declares before its export. -/
theorem Additive.exists_form_of_names (additive : Additive part) {name : String} {declarations : List Declaration}
    {c : Contribution} (names : NamesWhole t name declarations) (form : Contributes t c)
    (inner : b ∈ part ({ declarations, exportedLocals := [name] } ++ c)) : ∃ c, Contributes t c ∧ b ∈ part c := by
  rw [additive] at inner
  obtain own | rest := List.mem_append.1 inner
  · exact ⟨_, .names names, own⟩
  · exact ⟨_, form, rest⟩

theorem Additive.exists_form_of_default (additive : Additive part) (bare : ExportsRest t true)
    (inner : b ∈ part (defaultContribution t.line (t.child? .value))) : ∃ c, Contributes t c ∧ b ∈ part c := by
  unfold defaultContribution at inner
  dsimp only at inner
  split at inner
  · rename_i none
    exact ⟨_, .whole (.default bare none) (by simp), inner⟩
  · rename_i value held
    have whole : ExportsWhole t (some value) := .default bare held
    split at inner
    · rename_i identifier
      exact ⟨_, .hands (.whole whole identifier), inner⟩
    · rename_i other
      have single : Contributes t { exports := [⟨"default", .default, t.line⟩] } := .whole whole (by simpa using other)
      split at inner
      · exact ⟨_, single, inner⟩
      · rename_i name named
        split at inner
        · rename_i kind
          exact additive.exists_form_of_names (.classValue bare held kind named) single inner
        · split at inner
          · rename_i function
            obtain ⟨callable, arrow⟩ := Bool.and_eq_true_iff.1 function
            exact additive.exists_form_of_names (.function whole callable (by simpa using arrow) named) single inner
          · exact ⟨_, single, inner⟩

theorem Additive.exists_form_of_module (additive : Additive part) {value : Tree} (assigns : AssignsModule t value)
    (inner : b ∈ part (moduleExport value t.line)) : ∃ c, Contributes t c ∧ b ∈ part c := by
  unfold moduleExport at inner
  dsimp only at inner
  split at inner
  · rename_i identifier
    exact ⟨_, .hands (.whole (.assigned assigns (by simp [identifier]) rfl) identifier), inner⟩
  · rename_i object
    rw [additive.sum, List.flatMap_map] at inner
    obtain ⟨m, listed, inner⟩ := List.mem_flatMap.1 inner
    exact additive.exists_form_of_member ⟨value, assigns, object, listed⟩ inner
  · rename_i other single
    have whole : ExportsWhole t (some value) := .assigned assigns single rfl
    have default : Contributes t { exports := [⟨"default", .default, t.line⟩] } := .whole whole (by simpa using other)
    split at inner
    · rename_i name named
      split at inner
      · rename_i function
        obtain ⟨callable, arrow⟩ := Bool.and_eq_true_iff.1 function
        exact additive.exists_form_of_names (.function whole callable (by simpa using arrow) named) default inner
      · exact ⟨_, default, inner⟩
    · exact ⟨_, default, inner⟩

theorem Additive.exists_form_of_assignment (additive : Additive part) (statement : t.kind = .expressionStatement)
    (inner : b ∈ part (assignmentContribution t)) : ∃ c, Contributes t c ∧ b ∈ part c := by
  have nothing : b ∉ part {} := by simp [additive.empty]
  unfold assignmentContribution at inner
  split at inner
  · exact absurd inner nothing
  · rename_i e first
    split at inner
    · exact absurd inner nothing
    · rename_i kind
      split at inner
      · rename_i left right target assigned
        split at inner
        · exact absurd inner nothing
        · rename_i member
          have assigns : Assigns t left right := ⟨statement, ⟨e, first, by simpa using kind, target, assigned⟩,
            by simpa using member⟩
          split at inner
          · rename_i whole
            exact additive.exists_form_of_module ⟨left, assigns, whole⟩ inner
          · rename_i part
            split at inner
            · rename_i object property held named
              split at inner
              · rename_i exports
                have own : object.text = "exports" ∨ object.text = "module.exports" := by simpa using exports
                exact exists_form_of_bound (.property ⟨assigns, part, ⟨object, held, own⟩, named⟩) inner
              · exact absurd inner nothing
            · exact absurd inner nothing
      · exact absurd inner nothing

theorem Additive.exists_form (additive : Additive part) (inner : b ∈ part (contribution t)) :
    ∃ c, Contributes t c ∧ b ∈ part c := by
  unfold contribution at inner
  split at inner
  · rename_i statement
    unfold exportContribution at inner
    dsimp only at inner
    split at inner
    · rename_i source named
      exact ⟨_, .passes statement named, inner⟩
    · rename_i declaration own declares
      exact ⟨_, .exports ⟨statement, own, declares⟩, inner⟩
    · rename_i own bare
      split at inner
      · rename_i keyword
        exact additive.exists_form_of_default ⟨statement, own, bare, keyword⟩ inner
      · rename_i keyword
        obtain ⟨p, listed, inner⟩ := additive.mem_pending.1 inner
        obtain ⟨clause, part, entries⟩ := List.mem_flatMap.1 listed
        obtain ⟨⟨name, other?⟩, entry, rfl⟩ := List.mem_map.1 entries
        exact ⟨_, .hands (.listed ⟨statement, own, bare, Bool.eq_false_iff.2 keyword⟩ part entry), inner⟩
  · rename_i statement
    exact ⟨_, .imports statement, inner⟩
  · rename_i statement
    exact additive.exists_form_of_assignment statement inner
  · rename_i noExport noImport noExpression
    exact ⟨_, .declares ⟨noExport, noImport, noExpression⟩, inner⟩

/-! ### From a form to what is contributed -/

theorem Additive.mem_of_member (additive : Additive part) {m : Tree} (member : ExportsMember t m)
    (inner : b ∈ part (exportedMember m)) : b ∈ part (contribution t) := by
  obtain ⟨object, assigns, kind, listed⟩ := member
  rw [contribution_of_assignsModule assigns, moduleExport, kind]
  dsimp only
  rw [additive.sum, List.flatMap_map]
  exact List.mem_flatMap.2 ⟨m, listed, inner⟩

theorem Additive.mem_of_provides (additive : Additive part) {binding value : Tree} {target name : String}
    (provides : Provides t binding target name value)
    (inner : b ∈ part (boundExport binding target name value binding.line)) : b ∈ part (contribution t) := by
  cases provides with
  | property assigns =>
    rw [contribution_of_assignsProperty assigns]
    exact inner
  | pair member pair named held =>
    refine additive.mem_of_member member ?_
    simp only [exportedMember, pair, named, held]
    exact inner

theorem Additive.mem_of_hands (additive : Additive part) {p : Pending} (hands : Hands t p)
    (inner : b ∈ part { pending := [p] }) : b ∈ part (contribution t) := by
  cases hands with
  | listed bare listed entry =>
    rw [contribution_of_exportsRest bare, if_neg Bool.false_ne_true]
    exact additive.mem_pending.2 ⟨_, List.mem_flatMap.2 ⟨_, listed, List.mem_map.2 ⟨_, entry, rfl⟩⟩, inner⟩
  | whole whole identifier =>
    cases whole with
    | default bare held =>
      rw [contribution_of_exportsRest bare, if_pos rfl, held]
      simpa [defaultContribution, identifier] using inner
    | assigned assigns single same =>
      cases same
      rw [contribution_of_assignsModule assigns]
      simpa [moduleExport, identifier] using inner
  | shorthand member shorthand =>
    refine additive.mem_of_member member ?_
    simpa only [exportedMember, shorthand] using inner
  | provided provides identifier =>
    refine additive.mem_of_provides provides ?_
    simpa [boundExport, isCallable, identifier] using inner

/-- A value that is not only a name is exported by itself, whatever it declares besides. -/
theorem exists_contribution_of_whole {value? : Option Tree} (whole : ExportsWhole t value?)
    (other : ∀ v ∈ value?, v.kind ≠ .identifier) :
    ∃ c, contribution t = c ++ { exports := [⟨"default", .default, t.line⟩] } := by
  have alone : ({ exports := [⟨"default", .default, t.line⟩] } : Contribution) =
      {} ++ { exports := [⟨"default", .default, t.line⟩] } := rfl
  cases whole with
  | default bare held =>
    rw [contribution_of_exportsRest bare, if_pos rfl, held]
    unfold defaultContribution
    dsimp only
    split
    · exact ⟨_, alone⟩
    · rename_i value
      rw [if_neg (other value rfl)]
      split
      · exact ⟨_, alone⟩
      · split
        · exact ⟨_, rfl⟩
        · split
          · exact ⟨_, rfl⟩
          · exact ⟨_, alone⟩
  | assigned assigns single same =>
    cases same
    rw [contribution_of_assignsModule assigns, moduleExport]
    dsimp only
    split
    · rename_i identifier
      exact absurd identifier (other _ rfl)
    · rename_i object
      exact absurd object single
    · split
      · split
        · exact ⟨_, rfl⟩
        · exact ⟨_, alone⟩
      · exact ⟨_, alone⟩

theorem Additive.mem_of_names (additive : Additive part) {name : String} {declarations : List Declaration}
    (names : NamesWhole t name declarations) (inner : b ∈ part { declarations, exportedLocals := [name] }) :
    b ∈ part (contribution t) := by
  have first {c : Contribution} : b ∈ part ({ declarations, exportedLocals := [name] } ++ c) := by
    rw [additive]
    exact List.mem_append_left _ inner
  cases names with
  | classValue bare held kind named =>
    rw [contribution_of_exportsRest bare, if_pos rfl, held]
    simpa [defaultContribution, kind, named] using first
  | function whole callable arrow named =>
    obtain kind | kind := kind_of_callable callable arrow
    all_goals
      cases whole with
      | default bare held =>
        rw [contribution_of_exportsRest bare, if_pos rfl, held]
        simpa [defaultContribution, isCallable, kind, named] using first
      | assigned assigns single same =>
        cases same
        rw [contribution_of_assignsModule assigns]
        simpa [moduleExport, isCallable, kind, named] using first

theorem Additive.mem_of_form (additive : Additive part) {c : Contribution} (form : Contributes t c)
    (inner : b ∈ part c) : b ∈ part (contribution t) := by
  cases form with
  | declares other =>
    unfold contribution
    split
    · exact absurd ‹_› other.1
    · exact absurd ‹_› other.2.1
    · exact absurd ‹_› other.2.2
    · exact inner
  | imports statement =>
    rw [contribution, statement]
    exact inner
  | passes statement named =>
    rw [contribution, statement]
    simpa only [exportContribution, named] using inner
  | exports exports =>
    rw [contribution, exports.statement]
    simpa only [exportContribution, exports.own, exports.declares] using inner
  | hands hands => exact additive.mem_of_hands hands inner
  | names names => exact additive.mem_of_names names inner
  | whole whole other =>
    obtain ⟨c, same⟩ := exists_contribution_of_whole whole other
    rw [same, additive]
    exact List.mem_append_right _ inner
  | function provides callable =>
    refine additive.mem_of_provides provides ?_
    simpa only [boundExport, callable, if_true] using inner
  | data provides data other =>
    refine additive.mem_of_provides provides ?_
    simpa [boundExport, data, other] using inner
  | method method =>
    refine additive.mem_of_member method.member ?_
    obtain ⟨key, named, rfl⟩ := Option.map_eq_some_iff.1 method.named
    simpa only [exportedMember, method.method, named] using inner

/-- What a statement contributes is what its forms add. -/
theorem Additive.mem_contribution (additive : Additive part) :
    b ∈ part (contribution t) ↔ ∃ c, Contributes t c ∧ b ∈ part c :=
  ⟨additive.exists_form, fun ⟨_, form, inner⟩ => additive.mem_of_form form inner⟩

/-- What a program contributes is what the forms of its statements add. -/
theorem Additive.mem_outline (additive : Additive part) {root : Tree} :
    b ∈ part (programContribution root) ↔ ∃ t ∈ root.namedChildren, ∃ c, Contributes t c ∧ b ∈ part c :=
  additive.mem_program.trans (exists_congr fun _ => and_congr_right fun _ => additive.mem_contribution)

end Parts

/-! ## Small programs -/

namespace Sample

/-- A program of some statements. -/
def program (statements : List Tree) : Tree := .node { kind := .program, row := 0 } statements

/-- A declaration of a name, with what comes after it. -/
def declaration (kind : Syntax.Kind) (row : Nat) (name : String) (rest : List Tree) : Tree :=
  .node { kind, row } (.leaf { kind := .identifier, role := some .name, row } "" name :: rest)

/-- The name of a property. -/
def property (row : Nat) (name : String) : Tree :=
  .leaf { kind := .propertyIdentifier, role := some .property, row } "" name

/-- A member of something. -/
def member (row : Nat) (object name : String) : Tree :=
  .node { kind := .memberExpression, role := some .left, row }
    [.leaf { kind := .identifier, role := some .object, row } "" object, .leaf { kind := .word, row } "" ".",
      property row name]

/-- The assignment of a value to a member of something. -/
def assignment (row : Nat) (object name : String) (value : Tree) : Tree :=
  .node { kind := .expressionStatement, row }
    [.node { kind := .assignmentExpression, row } [member row object name, value.withRole .right]]

end Sample

end Gazetteer.Outline
