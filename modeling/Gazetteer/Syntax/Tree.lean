/-!
# Syntax trees

A syntax tree is lossless: its leaves, each with the blanks in front of it, are the source text.  `Tree.text`
is the text a tree spans, from its first token on.  Every tree knows its kind, the part it plays in its parent
(its role), the line it starts on, and whether it or something in it is an error.
-/

namespace Gazetteer.Syntax

set_option autoImplicit false

/-- What a tree stands for. Keywords and punctuation are words; kinds that nobody asks for are one. -/
inductive Kind
  | program
  | exportStatement
  | importStatement
  | expressionStatement
  | functionDeclaration
  | generatorFunctionDeclaration
  | functionSignature
  | classDeclaration
  | abstractClassDeclaration
  | interfaceDeclaration
  | typeAliasDeclaration
  | enumDeclaration
  | lexicalDeclaration
  | variableDeclaration
  | ambientDeclaration
  | variableDeclarator
  | methodDefinition
  | methodSignature
  | abstractMethodSignature
  | publicFieldDefinition
  | fieldDefinition
  | exportClause
  | exportSpecifier
  | namespaceExport
  | importClause
  | importRequireClause
  | importSpecifier
  | identifier
  | propertyIdentifier
  | shorthandProperty
  | classExpression
  | functionExpression
  | generatorFunction
  | arrowFunction
  | requiredParameter
  | optionalParameter
  | assignmentPattern
  | restPattern
  | objectPattern
  | arrayPattern
  | assignmentExpression
  | memberExpression
  | subscriptExpression
  | nonNullExpression
  | parenthesizedExpression
  | callExpression
  | newExpression
  | awaitExpression
  | object
  | array
  | pair
  | string
  | templateString
  | templateSubstitution
  | tryStatement
  | classHeritage
  | jsxOpeningElement
  | jsxSelfClosingElement
  | importCallee
  | decorator
  | comment
  | word
  | error
  | other
  deriving Repr, DecidableEq, Inhabited

/-- The part a tree plays in its parent. -/
inductive Role
  | name
  | body
  | value
  | source
  | declaration
  | alias
  | left
  | right
  | object
  | property
  | key
  | callee
  | arguments
  | constructor
  | parameter
  | parameters
  | pattern
  | type
  | returnType
  deriving Repr, DecidableEq

/-- What is known of a tree besides its children. -/
structure Label where
  kind : Kind
  role : Option Role := none
  /-- The line of its first token, counted from zero. -/
  row : Nat
  /-- Whether it is itself an error or something missing. -/
  faulty : Bool := false
  /-- Whether it or something in it is faulty. -/
  flagged : Bool := false
  deriving Repr, DecidableEq, Inhabited

/-- A syntax tree. -/
inductive Tree
  /-- A token behind some blanks. -/
  | leaf (label : Label) (lead text : String)
  | node (label : Label) (children : List Tree)
  deriving Repr, Inhabited

namespace Tree

/-- The label of a tree. -/
def label : Tree → Label
  | .leaf l _ _ => l
  | .node l _ => l

/-- The kind of a tree. -/
def kind (t : Tree) : Kind := t.label.kind

/-- The children of a tree; a token has none. -/
def children : Tree → List Tree
  | .leaf _ _ _ => []
  | .node _ ts => ts

/-- The line of a row, counted from one, in a word of 32 bits. -/
def lineOf (row : Nat) : Nat := (row + 1) % UInt32.size

/-- The line a tree starts on. -/
def line (t : Tree) : Nat := lineOf t.label.row

/-- Give a tree its part in its parent. -/
def withRole (r : Role) : Tree → Tree
  | .leaf l lead text => .leaf { l with role := some r } lead text
  | .node l ts => .node { l with role := some r } ts

mutual

/-- The source text of a tree with the blanks in front of it. -/
def source : Tree → String
  | .leaf _ lead text => lead ++ text
  | .node _ ts => sources ts

/-- The source text of some trees. -/
def sources : List Tree → String
  | [] => ""
  | t :: ts => source t ++ sources ts

end

mutual

/-- The text a tree spans. -/
def text : Tree → String
  | .leaf _ _ text => text
  | .node _ ts => texts ts

/-- The text that some trees span. -/
def texts : List Tree → String
  | [] => ""
  | t :: ts => text t ++ sources ts

end

/-- Whether the tree is more than a keyword or punctuation. -/
def isNamed (t : Tree) : Bool := t.kind != .word

/-- The children that are more than keywords and punctuation. -/
def namedChildren (t : Tree) : List Tree := t.children.filter isNamed

/-- The first child with a role. -/
def child? (t : Tree) (r : Role) : Option Tree := t.children.find? fun c => c.label.role = some r

/-- Whether the tree is a given keyword. -/
def isKeyword (s : String) (t : Tree) : Bool := t.kind = .word && t.text = s

/-- Whether a given keyword is among the children. -/
def hasKeyword (t : Tree) (s : String) : Bool := t.children.any (isKeyword s)

mutual

/-- A tree and everything in it, parents first. -/
def preorder : Tree → List Tree
  | .leaf l lead text => [.leaf l lead text]
  | .node l ts => .node l ts :: preorders ts

/-- Some trees and everything in them, parents first. -/
def preorders : List Tree → List Tree
  | [] => []
  | t :: ts => preorder t ++ preorders ts

end

end Tree

end Gazetteer.Syntax
