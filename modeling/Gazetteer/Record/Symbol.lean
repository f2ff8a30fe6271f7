import Gazetteer.Json.Decode

/-!
# Symbols

A symbol is a named declaration of a source file, with the text of its signature and its parameters.  Within
one reading of a repository it is identified by its file, its qualified name and its line (`Symbol.key`).
-/

namespace Gazetteer

set_option autoImplicit false

open Json

/-- What a symbol was declared as. -/
inductive SymbolKind
  | function
  | method
  | classType
  | interface
  /-- A function bound to a variable. -/
  | variableFunction
  deriving Repr, DecidableEq

namespace SymbolKind

/-- The name of a kind. -/
def name : SymbolKind → String
  | .function => "function"
  | .method => "method"
  | .classType => "class"
  | .interface => "interface"
  | .variableFunction => "variable-function"

/-- All kinds. -/
def all : List SymbolKind := [.function, .method, .classType, .interface, .variableFunction]

/-- Read the name of a kind. -/
def decode : Decoder SymbolKind := Decoder.choice (all.map fun k => (k.name, k))

end SymbolKind

/-- A formal parameter. -/
structure Parameter where
  name : String
  typeText : Option String
  isOptional : Bool
  deriving Repr, DecidableEq

namespace Parameter

/-- A parameter as JSON; an absent type is left out. -/
def encode (p : Parameter) : Json :=
  .record <| [("name", .string p.name)] ++
    (match p.typeText with
      | some t => [("typeText", .string t)]
      | none => []) ++
    [("optional", .bool p.isOptional)]

/-- The fields of a parameter. -/
def fields : Fields Decoder (String × Option String × Bool × Unit) :=
  .field "name" .text .required <|
  .field "typeText" (.optional .text) (.default none) <|
  .field "optional" .flag (.default false) .done

/-- Read a parameter. -/
def decode : Decoder Parameter := fun v => do
  let (name, typeText, isOptional, ()) ← fields.record "struct Parameter" v
  return ⟨name, typeText, isOptional⟩

end Parameter

/-- A named declaration of a source file. -/
structure Symbol where
  name : String
  /-- `Container.member` for methods, otherwise the name. -/
  qualifiedName : String
  kind : SymbolKind
  /-- The file, relative to the root of the repository. -/
  file : String
  /-- Counted from one. -/
  line : Nat
  signature : String
  isAsync : Bool
  isExported : Bool
  parameters : List Parameter
  returnType : Option String
  deriving Repr, DecidableEq

namespace Symbol

/-- What identifies a symbol within one reading of a repository. -/
def key (s : Symbol) : String := s!"{s.file}#{s.qualifiedName}@{s.line}"

/-- Whether two symbols share file, qualified name and line. -/
def sameKey (s t : Symbol) : Bool :=
  s.file = t.file && s.qualifiedName = t.qualifiedName && s.line = t.line

/-- A symbol as JSON; an absent return type is left out. -/
def encode (s : Symbol) : Json :=
  .record <|
    [("name", .string s.name), ("qualifiedName", .string s.qualifiedName),
      ("kind", .string s.kind.name), ("filePath", .string s.file), ("startLine", .nat s.line),
      ("signatureText", .string s.signature), ("isAsync", .bool s.isAsync),
      ("isExported", .bool s.isExported), ("parameters", .array (s.parameters.map (·.encode)))] ++
    (match s.returnType with
      | some t => [("returnTypeText", .string t)]
      | none => [])

/-- The fields of a symbol. -/
def fields : Fields Decoder (String × String × SymbolKind × String × Nat × String × Bool × Bool ×
    List Parameter × Option String × Unit) :=
  .field "name" .text .required <|
  .field "qualifiedName" .text .required <|
  .field "kind" SymbolKind.decode .required <|
  .field "filePath" .text .required <|
  .field "startLine" .word .required <|
  .field "signatureText" .text .required <|
  .field "isAsync" .flag .required <|
  .field "isExported" .flag .required <|
  .field "parameters" (.list Parameter.decode) (.default []) <|
  .field "returnTypeText" (.optional .text) (.default none) .done

/-- Read a symbol. -/
def decode : Decoder Symbol := fun v => do
  let (name, qualifiedName, kind, file, line, signature, isAsync, isExported, parameters,
    returnType, ()) ← fields.record "struct SymbolRecord" v
  return ⟨name, qualifiedName, kind, file, line, signature, isAsync, isExported, parameters,
    returnType⟩

end Symbol

end Gazetteer
