import Gazetteer.Outline.Text

/-!
# Declarations

A declaration is a tree that declares a symbol, with the names it is known by.  `Declaration.symbol` is the
record of that symbol; its owner is the top-level name whose export makes the symbol visible.
-/

namespace Gazetteer.Outline

set_option autoImplicit false

open Syntax (Tree)

/-- A tree that declares a symbol. -/
inductive Declaration
  | function (node : Tree) (name : String)
  /-- A member of a class or an interface. `callable` is the member, or the function that a field holds. -/
  | method (node : Tree) (held : Option Tree) (container name : String)
  | classType (node : Tree) (name : String)
  | interface (node : Tree) (name : String)
  /-- A function bound to a name; `target` is the binding as it is written. -/
  | variableFunction (binding callable : Tree) (name target : String)

namespace Declaration

/-- The top-level name whose export makes the symbol visible. -/
def owner : Declaration → String
  | .method _ _ container _ => container
  | .function _ name | .classType _ name | .interface _ name | .variableFunction _ _ name _ => name

/-- The head of a function value without its arrow. -/
def callableHead (callable : Tree) : String :=
  let rec cut : List Char → List Char
    | '>' :: '=' :: cs => cut cs
    | cs => cs
  let head := (cut (headText callable).toList.reverse).reverse
  String.ofList (Text.trimEnd Text.isBlank head)

/-- The record of the symbol. -/
def symbol (file : String) (isExported : Bool) (d : Declaration) : Symbol :=
  let record (name qualifiedName : String) (kind : SymbolKind) (place : Tree) (signature : String)
      (callable : Option Tree) : Symbol :=
    { name, qualifiedName, kind, file, line := place.line, signature
      isAsync := (callable.map (·.hasKeyword "async")).getD false
      isExported
      parameters := (callable.map parameters).getD []
      returnType := callable.bind returnType? }
  match d with
  | .function node name => record name name .function node (headText node) (some node)
  | .method node none container name =>
      record name s!"{container}.{name}" .method node (headText node) (some node)
  | .method node (some held) container name =>
      record name s!"{container}.{name}" .method node s!"{name} = {callableHead held}" (some held)
  | .classType node name => record name name .classType node (headText node) none
  | .interface node name => record name name .interface node (headText node) none
  | .variableFunction binding callable name target =>
      record name name .variableFunction binding s!"{target} = {callableHead callable}"
        (some callable)

end Declaration

end Gazetteer.Outline
