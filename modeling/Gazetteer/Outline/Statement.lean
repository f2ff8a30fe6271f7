import Gazetteer.Outline.Declaration
import Gazetteer.Record.Export

/-!
# What a top-level statement contributes

A statement contributes declarations, names it binds, names it exports and modules it names.  Contributions
add up (`Outline.append`), so the outline of a file is the sum over its statements; whether a declaration is
exported, and what kind an exported name has, is settled only once all statements are known.
-/

namespace Gazetteer.Outline

set_option autoImplicit false

open Syntax (Tree Kind Role)

/-- A name with the kind of its declaration and its line. -/
structure Binding where
  name : String
  kind : ExportKind
  line : Nat
  deriving Repr, DecidableEq

/-- An export whose kind depends on what its local name stands for. -/
structure Pending where
  localName : String
  exported : String
  line : Nat
  deriving Repr, DecidableEq

/-- What statements contribute. -/
structure Contribution where
  declarations : List Declaration := []
  /-- Names declared at top level. -/
  locals : List Binding := []
  /-- Names bound by imports. -/
  imported : List String := []
  /-- Local names known to be exported. -/
  exportedLocals : List String := []
  exports : List Binding := []
  pending : List Pending := []
  /-- Modules named by imports and exports. -/
  specifiers : List String := []

namespace Contribution

/-- Both contributions, one after the other. -/
def append (a b : Contribution) : Contribution where
  declarations := a.declarations ++ b.declarations
  locals := a.locals ++ b.locals
  imported := a.imported ++ b.imported
  exportedLocals := a.exportedLocals ++ b.exportedLocals
  exports := a.exports ++ b.exports
  pending := a.pending ++ b.pending
  specifiers := a.specifiers ++ b.specifiers

instance : Append Contribution := ⟨append⟩

end Contribution

/-! ## Declarations -/

/-- The symbol of a class or interface member, if it is a method or a field that holds a function. -/
def member? (container : String) (t : Tree) : Option Declaration :=
  match t.kind with
  | .methodDefinition | .methodSignature | .abstractMethodSignature =>
      (t.child? .name).map fun name => .method t none container name.text
  | .publicFieldDefinition | .fieldDefinition =>
      match (t.child? .name).or (t.child? .property), t.child? .value with
      | some name, some value =>
          if isCallable value then some (.method t (some value) container name.text) else none
      | _, _ => none
  | _ => none

/-- The symbols of the members of a class or an interface. -/
def members (container : Tree) (name : String) : List Declaration :=
  match container.child? .body with
  | some body => body.namedChildren.filterMap (member? name)
  | none => []

/-- What one variable binds; a pattern binds no single name. -/
def boundDeclarator? (keyword : String) (t : Tree) : Option (Binding × List Declaration) :=
  if t.kind != .variableDeclarator then none
  else
    match t.child? .name with
    | some nameTree =>
        if nameTree.kind != .identifier then none
        else
          let name := nameTree.text
          match t.child? .value with
          | some value =>
              if isCallable value then
                some (⟨name, .function, t.line⟩,
                  [.variableFunction t value name s!"{keyword} {name}"])
              else some (⟨name, .variable, t.line⟩, [])
          | none => some (⟨name, .variable, t.line⟩, [])
    | none => none

/-- What a declaration of variables binds. -/
def declarators (t : Tree) : List (Binding × List Declaration) :=
  let keyword := ((t.children.head?).map (·.text)).getD "var"
  t.children.filterMap (boundDeclarator? keyword)

mutual

/-- The names a declaration binds, and its symbols. -/
def declared : Tree → List (Binding × List Declaration)
  | .leaf _ _ _ => []
  | .node l ts =>
      let t := Syntax.Tree.node l ts
      let name? := (t.child? .name).map (·.text)
      match l.kind, name? with
      | .functionDeclaration, some name
      | .generatorFunctionDeclaration, some name
      | .functionSignature, some name =>
          [(⟨name, .function, t.line⟩, [.function t name])]
      | .classDeclaration, some name
      | .abstractClassDeclaration, some name =>
          [(⟨name, .classType, t.line⟩, .classType t name :: members t name)]
      | .interfaceDeclaration, some name =>
          [(⟨name, .interface, t.line⟩, .interface t name :: members t name)]
      | .typeAliasDeclaration, some name => [(⟨name, .type, t.line⟩, [])]
      | .enumDeclaration, some name => [(⟨name, .enum, t.line⟩, [])]
      | .lexicalDeclaration, _ | .variableDeclaration, _ => declarators t
      | .ambientDeclaration, _ => declaredAll ts
      | _, _ => []

/-- The names some declarations bind, and their symbols. -/
def declaredAll : List Tree → List (Binding × List Declaration)
  | [] => []
  | t :: ts => declared t ++ declaredAll ts

end

/-- What a declaration contributes. -/
def declarationContribution (t : Tree) : Contribution :=
  let found := declared t
  { declarations := found.flatMap (·.2), locals := found.map (·.1) }

/-! ## Exports -/

/-- The names of an export clause, each with its alias. -/
def clauseNames (clause : Tree) : List (String × Option String) :=
  (clause.children.filter fun c => c.kind = .exportSpecifier).filterMap fun s =>
    (s.child? .name).map fun name =>
      (withoutQuotes name.text, (s.child? .alias).map fun a => withoutQuotes a.text)

/-- Cut the word `as` at the front of a text, as often as it stands there. -/
def withoutAs : List Char → List Char
  | 'a' :: 's' :: cs => withoutAs cs
  | cs => cs

/-- The name under which a module is exported as a whole. -/
def namespaceName (t : Tree) : String :=
  let name := Text.strip (trimStart '*' t.text)
  Text.strip (String.ofList (withoutAs name.toList))

/-- What a part of an export from another module exports. -/
def reExports (line : Nat) (t : Tree) : List Binding :=
  match t.kind with
  | .exportClause => (clauseNames t).map fun (name, other?) => ⟨other?.getD name, .reExport, line⟩
  | .namespaceExport => [⟨namespaceName t, .reExport, line⟩]
  | _ => []

/-- What an export from another module contributes; without named parts it exports everything. -/
def sourceContribution (t source : Tree) : Contribution :=
  let named := t.children.any fun c => c.kind = .exportClause || c.kind = .namespaceExport
  { specifiers := (stringValue? source).toList
    exports :=
      if named then t.children.flatMap (reExports t.line) else [⟨"*", .reExport, t.line⟩] }

/-- What the export of a declaration contributes. -/
def exportedDeclaration (isDefault : Bool) (t : Tree) : Contribution :=
  let names := (declared t).map (·.1)
  declarationContribution t ++
    { exportedLocals := names.map (·.name)
      exports :=
        if isDefault then names.map fun b => ⟨"default", .default, b.line⟩ else names }

/-- What a default export of a value contributes. -/
def defaultContribution (line : Nat) (value? : Option Tree) : Contribution :=
  let whole : Contribution := { exports := [⟨"default", .default, line⟩] }
  match value? with
  | none => whole
  | some value =>
      if value.kind = .identifier then { pending := [⟨value.text, "default", line⟩] }
      else
        match (value.child? .name).map (·.text) with
        | none => whole
        | some name =>
            if value.kind = .classExpression then
              { declarations := .classType value name :: members value name
                exportedLocals := [name] } ++ whole
            else if isCallable value && value.kind != .arrowFunction then
              { declarations := [.function value name], exportedLocals := [name] } ++ whole
            else whole

/-- What an export statement contributes. -/
def exportContribution (t : Tree) : Contribution :=
  let isDefault := t.hasKeyword "default"
  match t.child? .source, t.child? .declaration with
  | some source, _ => sourceContribution t source
  | none, some declaration => exportedDeclaration isDefault declaration
  | none, none =>
      if isDefault then defaultContribution t.line (t.child? .value)
      else
        { pending := (t.children.filter fun c => c.kind = .exportClause).flatMap fun clause =>
            (clauseNames clause).map fun (name, other?) => ⟨name, other?.getD name, t.line⟩ }

/-! ## Imports -/

mutual

/-- The identifiers in a tree, none of them inside another. -/
def identifiers : Tree → List String
  | .leaf l _ text => if l.kind = .identifier then [text] else []
  | .node l ts => if l.kind = .identifier then [Tree.texts ts] else identifiersIn ts

/-- The identifiers in some trees. -/
def identifiersIn : List Tree → List String
  | [] => []
  | t :: ts => identifiers t ++ identifiersIn ts

end

/-- What an import statement contributes. -/
def importContribution (t : Tree) : Contribution :=
  let required := t.children.find? fun c => c.kind = .importRequireClause
  let source := (t.child? .source).or (required.bind (·.child? .source))
  let clauses := t.children.filter fun c =>
    c.kind = .importClause || c.kind = .importRequireClause
  { specifiers := (source.bind stringValue?).toList
    imported := clauses.flatMap identifiers }

/-! ## Assignments to `exports` -/

/-- What the export of a value under a name contributes. -/
def boundExport (binding : Tree) (target name : String) (value : Tree) (line : Nat) :
    Contribution :=
  if isCallable value then
    { exportedLocals := [name], exports := [⟨name, .function, line⟩]
      declarations := [.variableFunction binding value name target] }
  else if value.kind = .identifier then { pending := [⟨value.text, name, line⟩] }
  else { exports := [⟨name, .variable, line⟩] }

/-- What a member of an exported object contributes. -/
def exportedMember (t : Tree) : Contribution :=
  match t.kind with
  | .shorthandProperty => { pending := [⟨t.text, t.text, t.line⟩] }
  | .pair =>
      match t.child? .key, t.child? .value with
      | some key, some value =>
          let name := withoutQuotes key.text
          boundExport t s!"module.exports.{name}" name value t.line
      | _, _ => {}
  | .methodDefinition =>
      match t.child? .name with
      | some key => { exports := [⟨key.text, .function, t.line⟩] }
      | none => {}
  | _ => {}

/-- What an assignment to `module.exports` contributes. -/
def moduleExport (value : Tree) (line : Nat) : Contribution :=
  match value.kind with
  | .identifier => { pending := [⟨value.text, "default", line⟩] }
  | .object => (value.children.map exportedMember).foldl (· ++ ·) {}
  | _ =>
      let whole : Contribution := { exports := [⟨"default", .default, line⟩] }
      match (value.child? .name).map (·.text) with
      | some name =>
          if isCallable value && value.kind != .arrowFunction then
            { declarations := [.function value name], exportedLocals := [name] } ++ whole
          else whole
      | none => whole

/-- What an expression statement contributes. -/
def assignmentContribution (t : Tree) : Contribution :=
  match t.namedChildren.head? with
  | none => {}
  | some e =>
      if e.kind != .assignmentExpression then {}
      else
        match e.child? .left, e.child? .right with
        | some left, some right =>
            if left.kind != .memberExpression then {}
            else if left.text = "module.exports" then moduleExport right t.line
            else
              match left.child? .object, left.child? .property with
              | some object, some property =>
                  if object.text = "exports" || object.text = "module.exports" then
                    boundExport t left.text property.text right t.line
                  else {}
              | _, _ => {}
        | _, _ => {}

/-- What a top-level statement contributes. -/
def contribution (t : Tree) : Contribution :=
  match t.kind with
  | .exportStatement => exportContribution t
  | .importStatement => importContribution t
  | .expressionStatement => assignmentContribution t
  | _ => declarationContribution t

/-- The sum of what the statements of a program contribute. -/
def programContribution (root : Tree) : Contribution :=
  (root.namedChildren.map contribution).foldl (· ++ ·) {}

end Gazetteer.Outline
