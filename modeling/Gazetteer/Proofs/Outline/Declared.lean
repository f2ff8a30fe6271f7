import Gazetteer.Outline.Extraction

/-!
# What declarations bind

Every name that a declaration binds comes with the symbols that it declares.  They are owned by that name
(`Entry.owned`), and a function, a class or an interface has one on its own line and of its own kind (`Entry.backed`).
Declarations nest, so both follow from `Shapewise.declared`, which asks for one case for each shape.
-/

namespace Gazetteer

set_option autoImplicit false

/-- The kinds of the symbols that may be exported as a kind; types, enumerations and plain variables have none. -/
def ExportKind.symbolKinds : ExportKind → List SymbolKind
  | .function => [.function, .variableFunction]
  | .classType => [.classType]
  | .interface => [.interface]
  | .type | .enum | .variable | .default | .reExport => []

namespace Outline

open Syntax (Tree)

/-! ## Shapes of declarations -/

/-- A law of what declarations bind, with a case for each shape. -/
structure Shapewise (P : Binding → List Declaration → Prop) : Prop where
  function : ∀ (t : Tree) (name : String), P ⟨name, .function, t.line⟩ [.function t name]
  classType : ∀ (t : Tree) (name : String), P ⟨name, .classType, t.line⟩ (.classType t name :: members t name)
  interface : ∀ (t : Tree) (name : String), P ⟨name, .interface, t.line⟩ (.interface t name :: members t name)
  type : ∀ (t : Tree) (name : String), P ⟨name, .type, t.line⟩ []
  enum : ∀ (t : Tree) (name : String), P ⟨name, .enum, t.line⟩ []
  variableFunction : ∀ (t value : Tree) (name target : String),
    P ⟨name, .function, t.line⟩ [.variableFunction t value name target]
  data : ∀ (t : Tree) (name : String), P ⟨name, .variable, t.line⟩ []

section Shapes

variable {P : Binding → List Declaration → Prop} {b : Binding} {ds : List Declaration}

theorem Shapewise.boundDeclarator (shapewise : Shapewise P) {keyword : String} {t : Tree}
    (bound : boundDeclarator? keyword t = some (b, ds)) : P b ds := by
  unfold boundDeclarator? at bound
  split at bound
  · cases bound
  · split at bound
    · split at bound
      · cases bound
      · dsimp only at bound
        split at bound
        · split at bound
          · cases bound
            exact shapewise.variableFunction _ _ _ _
          · cases bound
            exact shapewise.data _ _
        · cases bound
          exact shapewise.data _ _
    · cases bound

mutual

theorem Shapewise.declared (shapewise : Shapewise P) : (t : Tree) → (b, ds) ∈ declared t → P b ds
  | .leaf _ _ _, member => by
    rw [Outline.declared] at member
    cases member
  | .node l ts, member => by
    have one {b' : Binding} {ds' : List Declaration} (holds : P b' ds') (member : (b, ds) ∈ [(b', ds')]) : P b ds := by
      cases List.mem_singleton.1 member
      exact holds
    have several (member : (b, ds) ∈ declarators (.node l ts)) : P b ds := by
      obtain ⟨child, -, bound⟩ := List.mem_filterMap.1 member
      exact shapewise.boundDeclarator bound
    unfold Outline.declared at member
    dsimp only at member
    split at member
    · exact one (shapewise.function _ _) member
    · exact one (shapewise.function _ _) member
    · exact one (shapewise.function _ _) member
    · exact one (shapewise.classType _ _) member
    · exact one (shapewise.classType _ _) member
    · exact one (shapewise.interface _ _) member
    · exact one (shapewise.type _ _) member
    · exact one (shapewise.enum _ _) member
    · exact several member
    · exact several member
    · exact shapewise.declaredAll ts member
    · cases member

theorem Shapewise.declaredAll (shapewise : Shapewise P) : (ts : List Tree) → (b, ds) ∈ declaredAll ts → P b ds
  | [], member => by
    rw [Outline.declaredAll] at member
    cases member
  | t :: ts, member => by
    rw [Outline.declaredAll] at member
    obtain first | later := List.mem_append.1 member
    · exact shapewise.declared t first
    · exact shapewise.declaredAll ts later

end

end Shapes

/-! ## Symbols of declarations -/

theorem owner_of_member? {container : String} {t : Tree} {d : Declaration} (found : member? container t = some d) :
    d.owner = container := by
  unfold member? at found
  split at found <;> grind [Declaration.owner, Option.map_eq_some_iff]

theorem owner_of_mem_members {container : Tree} {name : String} {d : Declaration}
    (member : d ∈ members container name) : d.owner = name := by
  unfold members at member
  split at member
  · obtain ⟨t, -, found⟩ := List.mem_filterMap.1 member
    exact owner_of_member? found
  · cases member

/-- A declaration has a symbol like what its name is bound to: owned by the name, on its line and of its kind. -/
structure Declaration.Backs (d : Declaration) (b : Binding) : Prop where
  owner : d.owner = b.name
  line : ∀ file isExported, (d.symbol file isExported).line = b.line
  kind : ∀ file isExported, (d.symbol file isExported).kind ∈ b.kind.symbolKinds

/-- What a declaration binds a name to, with the symbols that come with it. -/
structure Entry (b : Binding) (ds : List Declaration) : Prop where
  owned : ∀ d ∈ ds, d.owner = b.name
  backed : b.kind.symbolKinds ≠ [] → ∃ d ∈ ds, d.Backs b

theorem Entry.headed {b : Binding} {d : Declaration} {ds : List Declaration} (backs : d.Backs b)
    (owned : ∀ d ∈ ds, d.owner = b.name) : Entry b (d :: ds) :=
  ⟨List.forall_mem_cons.2 ⟨backs.owner, owned⟩, fun _ => ⟨d, List.mem_cons_self, backs⟩⟩

theorem Entry.bare {b : Binding} (kind : b.kind.symbolKinds = []) : Entry b [] :=
  ⟨nofun, fun filled => absurd kind filled⟩

theorem Shapewise.entry : Shapewise Entry where
  function _ _ := .headed ⟨rfl, fun _ _ => rfl, fun _ _ => .head _⟩ nofun
  classType _ _ := .headed ⟨rfl, fun _ _ => rfl, fun _ _ => .head _⟩ fun _ => owner_of_mem_members
  interface _ _ := .headed ⟨rfl, fun _ _ => rfl, fun _ _ => .head _⟩ fun _ => owner_of_mem_members
  type _ _ := .bare rfl
  enum _ _ := .bare rfl
  variableFunction _ _ _ _ := .headed ⟨rfl, fun _ _ => rfl, fun _ _ => .tail _ (.head _)⟩ nofun
  data _ _ := .bare rfl

end Outline

end Gazetteer
