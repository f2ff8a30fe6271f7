import Gazetteer.Json.Parser

/-!
# Which modules belong to the project

An import names a module of the project if it starts with one of the internal prefixes, or if the project's
own configuration declares an alias for it.  The aliases are the keys of `compilerOptions.paths`, without the
stars at their ends; a comment in that configuration is cut before it is read.
-/

namespace Gazetteer

set_option autoImplicit false

/-- What the configuration of a typed or checked project says. -/
structure ProjectFile where
  /-- The name of the configuration file. -/
  file : String
  aliases : List String
  allowJs : Bool
  deriving Repr, DecidableEq

/-- How to tell modules of the project from packages. -/
structure ImportRules where
  /-- `none` if every file stands for itself. -/
  project : Option ProjectFile
  prefixes : List String
  deriving Repr, DecidableEq

namespace ImportRules

/-- Whether an alias covers a module. -/
def covers (short specifier : String) : Bool :=
  specifier.toList = Text.trimEnd (· = '/') short.toList || Text.startsWith specifier short

/-- Whether an import names a module of the project. -/
def isInternal (r : ImportRules) (specifier : String) : Bool :=
  r.prefixes.any (Text.startsWith specifier) ||
    match r.project with
    | some p => p.aliases.any fun short => covers short specifier
    | none => false

end ImportRules

namespace ProjectFile

mutual

/-- Copy text outside of quotes, without its comments. -/
def stripComments : List Char → List Char
  | [] => []
  | '"' :: cs => '"' :: stripQuoted cs
  | '/' :: '/' :: cs => stripLine cs
  | '/' :: '*' :: cs => stripBlock cs
  | c :: cs => c :: stripComments cs

/-- Copy a quoted text. -/
def stripQuoted : List Char → List Char
  | [] => []
  | '"' :: cs => '"' :: stripComments cs
  | '\\' :: c :: cs => '\\' :: c :: stripQuoted cs
  | c :: cs => c :: stripQuoted cs

/-- Skip a comment to the end of its line, which stays. -/
def stripLine : List Char → List Char
  | [] => []
  | '\n' :: cs => '\n' :: stripComments cs
  | _ :: cs => stripLine cs

/-- Skip a comment between stars. -/
def stripBlock : List Char → List Char
  | [] => []
  | '*' :: '/' :: cs => stripComments cs
  | _ :: cs => stripBlock cs

end

/-- The aliases in the paths of a configuration, each once and in order. -/
def aliasesOf (options : Option Json) : List String :=
  match options.bind (·.get? "paths") with
  | some (.object members) =>
      let trimmed := members.map fun m => String.ofList (Text.trimEnd (· = '*') m.1.toList)
      ((trimmed.filter fun short => !short.isEmpty).mergeSort fun a b => a ≤ b).eraseDups
  | _ => []

/-- The configuration in a file of the given name, if its text can be read. -/
def parse? (file text : String) : Option ProjectFile :=
  let plain := stripComments text.toList
  match Json.parse (String.ofList plain) with
  | .error _ => none
  | .ok v =>
      let options := v.get? "compilerOptions"
      let allowJs := match options.bind (·.get? "allowJs") with
        | some (.bool b) => b
        | _ => false
      some ⟨file, aliasesOf options, file = "jsconfig.json" || allowJs⟩

end ProjectFile

end Gazetteer
